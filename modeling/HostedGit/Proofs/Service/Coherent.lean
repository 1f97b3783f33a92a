/-
What the trees that are remembered have to do with the references that are. A tree only comes for a reference
that is in the list that came last for its repository. The list may be replaced or forgotten afterwards, and
the tree remains; so a remembered tree vouches for a reference at the time at which it came, and not for now.
-/
import HostedGit.Proofs.Service.Remembered
import Mathlib.Data.List.Induction

namespace HostedGit

open HostedGit.Action Session

/-! ## The last list -/

namespace Happening

/-- The references of a URL, if they are listed. -/
def list? (url : String) : Happening → Option (List String)
  | received call d => if call.target.url = url then d.refs? else none
  | forgotten _ => none

/-- A tree only comes in a call for it. -/
theorem received_of_tree? {x : Happening} {url reference : String} {paths : List String}
    (h : x.tree? url reference = some (some paths)) : ∃ t extensions d,
      x = .received (.listTree t extensions) d ∧ t.url = url ∧ t.reference = reference ∧ d.paths? = some paths := by
  cases x with
  | forgotten t =>
    unfold tree? at h
    dsimp only at h
    split at h <;> cases h
  | received call d =>
    cases call with
    | listTree t extensions =>
      unfold tree? at h
      dsimp only at h
      split at h
      · rename_i ht
        obtain ⟨paths', hd, hp⟩ := Option.map_eq_some_iff.mp h
        cases hp
        exact ⟨t, extensions, d, rfl, ht.1, ht.2, hd⟩
      · cases h
    | _ => cases h

theorem list?_of_tree? {x : Happening} {url reference : String} {paths : List String}
    (h : x.tree? url reference = some (some paths)) (url' : String) : x.list? url' = none := by
  obtain ⟨t, extensions, d, rfl, -, -, hp⟩ := received_of_tree? h
  unfold list?
  dsimp only
  rw [Cache.refs?_eq_none_of_paths? hp]
  split <;> rfl

/-- What says which references there are lists them. -/
theorem list?_of_refs? {x : Happening} {url : String} {names : List String}
    (h : x.refs? url = some (some names)) : x.list? url = some names := by
  cases x with
  | received call d =>
    unfold refs? at h
    unfold list?
    dsimp only at h ⊢
    split at h
    · rename_i hu
      rw [if_pos hu]
      obtain ⟨names', hd, hn⟩ := Option.map_eq_some_iff.mp h
      cases hn
      exact hd
    · cases h
  | forgotten t =>
    unfold refs? at h
    dsimp only at h
    split at h <;> cases h

theorem list?_of_unsaid {x : Happening} {url : String} (h : x.refs? url = none) : x.list? url = none := by
  cases x with
  | received call d =>
    unfold refs? at h
    unfold list?
    dsimp only at h ⊢
    split at h
    · rename_i hu
      rw [if_pos hu]
      exact Option.map_eq_none_iff.mp h
    · rename_i hu
      rw [if_neg hu]
  | forgotten t => rfl

end Happening

namespace History

/-- The references of a URL as they were listed last, even if they have been forgotten since. -/
def lastList (h : History) (url : String) : Option (List String) := (h.filterMap (·.list? url)).getLast?

theorem lastList_append (h k : History) (url : String) :
    (h ++ k).lastList url = (k.lastList url).or (h.lastList url) := by
  unfold lastList
  rw [List.filterMap_append, List.getLast?_append]

theorem lastList_of_unlisted {h : History} {url : String} (hh : ∀ x ∈ h, x.list? url = none) :
    h.lastList url = none := by
  unfold lastList
  rw [List.filterMap_eq_nil_iff.mpr hh]
  rfl

/-- References that are still known are those that were listed last. -/
theorem lastList_of_refs {h : History} {url : String} {names : List String} (hr : h.refs url = some names) :
    h.lastList url = some names := by
  -- from the end: the last happening decides, unless it says nothing of the references
  induction h using List.reverseRecOn with
  | nil => cases hr
  | append_singleton h x ih =>
    unfold refs at hr
    rw [List.filterMap_append, List.getLast?_append] at hr
    rw [lastList_append]
    cases hx : x.refs? url with
    | none =>
      rw [List.filterMap_cons_none hx] at hr
      rw [lastList_of_unlisted (h := [x]) (by simpa using Happening.list?_of_unsaid hx)]
      exact ih hr
    | some said =>
      rw [List.filterMap_cons_some hx] at hr
      cases said with
      | none => cases hr
      | some names' =>
        cases hr
        unfold lastList
        rw [List.filterMap_cons_some (Happening.list?_of_refs? hx)]
        rfl

theorem lastList_received (call : Call) (ds : List Document) :
    lastList (ds.map (.received call)) call.target.url = (ds.filterMap (·.refs?)).getLast? := by
  have same : Happening.list? call.target.url ∘ Happening.received call = (·.refs?) :=
    funext fun d => if_pos rfl
  unfold lastList
  rw [List.filterMap_map, same]

/-- A tree that is known came at some time, and nothing has been said of it since. -/
theorem split_of_tree {h : History} {url reference : String} {paths : List String}
    (ht : h.tree url reference = some paths) : ∃ earlier x later, h = earlier ++ x :: later ∧
      x.tree? url reference = some (some paths) ∧ ∀ y ∈ later, y.tree? url reference = none := by
  -- from the end: what says nothing of the tree is put to what has come since
  induction h using List.reverseRecOn with
  | nil => cases ht
  | append_singleton h x ih =>
    unfold tree at ht
    rw [List.filterMap_append, List.getLast?_append] at ht
    cases hx : x.tree? url reference with
    | none =>
      rw [List.filterMap_cons_none hx] at ht
      obtain ⟨earlier, y, later, rfl, hy, hl⟩ := ih ht
      refine ⟨earlier, y, later ++ [x], by simp, hy, fun z hz => ?_⟩
      rcases List.mem_append.mp hz with hz | hz
      · exact hl z hz
      · cases List.mem_singleton.mp hz
        exact hx
    | some said =>
      rw [List.filterMap_cons_some hx] at ht
      cases said with
      | none => cases ht
      | some paths' =>
        cases ht
        exact ⟨h, x, [], rfl, hx, nofun⟩

/-! ## Histories in which trees are grounded -/

/-- Every tree in a history comes for a reference that was in the list that had come last by then. -/
inductive Grounded : History → Prop
  | nil : Grounded []
  | snoc {h : History} {x : Happening} (hh : Grounded h)
      (hx : ∀ url reference paths, x.tree? url reference = some (some paths) →
        ∃ names, h.lastList url = some names ∧ reference ∈ names) : Grounded (h ++ [x])

theorem Grounded.append {h k : History} (hh : Grounded h)
    (hk : ∀ x ∈ k, ∀ url reference paths, x.tree? url reference ≠ some (some paths)) : Grounded (h ++ k) := by
  induction k using List.reverseRecOn with
  | nil => rwa [List.append_nil]
  | append_singleton k x ih =>
    rw [← List.append_assoc]
    refine .snoc (ih fun y hy => hk y (List.mem_append_left _ hy)) fun url reference paths hx => ?_
    exact absurd hx (hk x (by simp) url reference paths)

theorem Grounded.of_split {h : History} (hh : Grounded h) {earlier later : History} {x : Happening}
    (hs : h = earlier ++ x :: later) {url reference : String} {paths : List String}
    (hx : x.tree? url reference = some (some paths)) :
    ∃ names, earlier.lastList url = some names ∧ reference ∈ names := by
  induction hh generalizing later with
  | nil => simp at hs
  | snoc hh hy ih =>
    cases later using List.reverseRecOn with
    | nil =>
      obtain ⟨rfl, hxy⟩ := List.append_inj' hs rfl
      cases hxy
      exact hy url reference paths hx
    | append_singleton later y =>
      rw [← List.cons_append, ← List.append_assoc] at hs
      obtain ⟨hs, -⟩ := List.append_inj' hs rfl
      exact ih hs

end History

/-! ## Runs -/

namespace Service

open History

theorem happenings_of_learnt {s : Service} {ctx : CallContext} {call : Call} {σ : Session} {ds : List Document}
    (hc : ∀ t, call ≠ .removeCache t) (h : Learnt call ds σ (s.perform ctx call σ).2) :
    s.happenings σ (.call ctx call) = ds.map (Happening.received call) := by
  have hd : (s.perform ctx call σ).2.documents.drop σ.documents.length = ds := by
    rw [h.documents, List.drop_left]
  rw [← hd]
  cases call with
  | removeCache t => exact absurd rfl (hc t)
  | _ => rfl

/-- The references that are known when a tree comes are those that were listed last. -/
theorem lastList_of_treeCame {t : Target} {extensions : List String} {ds : List Document} {d : Document}
    {paths : List String} {σ σ' : Session} {h : History} {enabled : Bool}
    (came : TreeCame t extensions ds d paths σ σ') (hσ : σ.cache = h.foldl Cache.follow (.empty enabled)) :
    ∃ names, (h ++ ds.map (Happening.received (.listTree t extensions))).lastList t.url = some names ∧
      t.reference ∈ names := by
  obtain ⟨names, known, hn⟩ := came.listed
  refine ⟨names, ?_, hn⟩
  have listed := lastList_received (.listTree t extensions) ds
  rw [lastList_append, show t.url = (Call.listTree t extensions).target.url from rfl, listed]
  cases hl : (ds.filterMap (·.refs?)).getLast? with
  | some names' =>
    rw [hl] at known
    exact known
  | none =>
    rw [hl, hσ, Cache.getRefs_foldl_follow] at known
    refine lastList_of_refs ?_
    cases enabled with
    | true => exact known
    | false => cases known

/-- Grounded as the history is before an event, so it is after it. -/
theorem grounded_after {s : Service} {σ : Session} {h : History} {enabled : Bool} (hh : Grounded h)
    (hσ : σ.cache = h.foldl Cache.follow (.empty enabled)) (e : Event) : Grounded (h ++ s.happenings σ e) := by
  have treeless {call : Call} {ds : List Document} (hd : ∀ d ∈ ds, d.paths? = none) :
      Grounded (h ++ ds.map (Happening.received call)) := by
    refine hh.append fun x hx url reference paths hp => ?_
    obtain ⟨d, hm, rfl⟩ := List.mem_map.mp hx
    rw [Cache.tree?_of_paths? (hd d hm)] at hp
    cases hp
  cases e with
  | call ctx call =>
    -- documents that came in another call than one for a tree are no trees
    have other (hc : ∀ t extensions, call ≠ .listTree t extensions) :
        Grounded (h ++ s.happenings σ (.call ctx call)) := by
      refine hh.append fun x hx url reference paths hp => ?_
      obtain ⟨t, extensions, d, rfl, -⟩ := Happening.received_of_tree? hp
      cases call with
      | listTree t extensions => exact hc t extensions rfl
      | removeCache t => cases List.mem_singleton.mp hx
      | _ =>
        obtain ⟨d', -, hd'⟩ := List.mem_map.mp hx
        cases hd'
    cases call with
    | listTree t extensions =>
      have learnt {ds σ' r} (hx : s.listTree ctx t extensions σ = (r, σ'))
          (hl : Learnt (.listTree t extensions) ds σ σ') :
          s.happenings σ (.call ctx (.listTree t extensions)) =
            ds.map (Happening.received (.listTree t extensions)) :=
        happenings_of_learnt nofun (by
          show Learnt _ ds σ (s.listTree ctx t extensions σ).2
          rw [hx]
          exact hl)
      rcases listTree_outcome s ctx t extensions σ with ⟨e, σ', hx, ds, hl, hd⟩ | ⟨paths, σ', -, hx, hl⟩ |
        ⟨ds, d, paths, σ', hx, tree⟩
      · rw [learnt hx hl]
        exact treeless hd
      · rw [learnt hx hl]
        exact treeless nofun
      -- the tree comes last, after all that the call has learnt of the references
      · rw [learnt hx tree.learnt, List.map_append, ← List.append_assoc]
        refine .snoc (treeless tree.first) fun url reference paths' hp => ?_
        obtain ⟨t', extensions', d', he, rfl, rfl, -⟩ := Happening.received_of_tree? hp
        cases he
        exact lastList_of_treeCame tree hσ
    | _ => exact other nofun
  | _ => exact hh.append nofun

theorem grounded_history {s : Service} {σ : Session} {h : History} {enabled : Bool} (hh : Grounded h)
    (hσ : σ.cache = h.foldl Cache.follow (.empty enabled)) (es : List Event) : Grounded (h ++ s.history σ es) := by
  induction es generalizing σ h with
  | nil =>
    unfold history
    rwa [List.append_nil]
  | cons e es ih =>
    unfold history
    rw [← List.append_assoc]
    refine ih (grounded_after hh hσ e) ?_
    rw [cache_after, hσ, List.foldl_append]

theorem history_append (s : Service) (σ : Session) (es es' : List Event) :
    s.history σ (es ++ es') = s.history σ es ++ s.history (s.run σ es) es' := by
  induction es generalizing σ with
  | nil => rfl
  | cons e es ih =>
    show s.happenings σ e ++ s.history (s.after σ e) (es ++ es') =
      (s.happenings σ e ++ s.history (s.after σ e) es) ++ s.history (s.run (s.after σ e) es) es'
    rw [ih, List.append_assoc]

/-- A call for a tree is only answered if the tree is remembered, or if its reference is in the list that came
last. -/
theorem listed_of_listTree_ok {s : Service} {ctx : CallContext} {t : Target} {extensions paths : List String}
    {σ : Session} {h : History} {enabled : Bool} (hσ : σ.cache = h.foldl Cache.follow (.empty enabled))
    (hok : (s.listTree ctx t extensions σ).1 = .ok paths) :
    (σ.cache.getTree t.url t.reference).isSome ∨ ∃ names,
      (h ++ s.happenings σ (.call ctx (.listTree t extensions))).lastList t.url = some names ∧
        t.reference ∈ names := by
  rcases listTree_outcome s ctx t extensions σ with ⟨e, σ', hx, -⟩ | ⟨paths', σ', hc, -⟩ |
    ⟨ds, d, paths', σ', hx, tree⟩
  · rw [hx] at hok
    cases hok
  · rw [hc]
    exact .inl rfl
  · right
    obtain ⟨names, hlast, hn⟩ := lastList_of_treeCame tree hσ
    refine ⟨names, ?_, hn⟩
    have learnt : Learnt (.listTree t extensions) (ds ++ [d]) σ (s.listTree ctx t extensions σ).2 := by
      rw [hx]
      exact tree.learnt
    have tree? : (Happening.received (.listTree t extensions) d).tree? t.url t.reference = some (some paths') := by
      simp [Happening.tree?, tree.paths]
    have happened : s.happenings σ (.call ctx (.listTree t extensions)) =
        (ds ++ [d]).map (Happening.received (.listTree t extensions)) := happenings_of_learnt nofun learnt
    rw [happened, List.map_append, ← List.append_assoc, lastList_append,
      lastList_of_unlisted (by simpa using Happening.list?_of_tree? tree? t.url), Option.none_or]
    exact hlast

/-- Whatever is remembered after any run, and however the remote replied: a tree came for a reference that was
in the list that had come last by then, and the references that are remembered are still those, unless a list
has come since. A call for a tree is only answered if the tree is remembered, or if its reference is in the
list that came last. -/
theorem trees_vouch_for_references (s : Service) (σ : Session) (enabled : Bool) (es : List Event) :
    let start := { σ with cache := .empty enabled }
    let cache := (s.run start es).cache
    (∀ url reference paths, cache.getTree url reference = some paths →
      ∃ earlier x later names, s.history start es = earlier ++ x :: later ∧
        x.tree? url reference = some (some paths) ∧ (∀ y ∈ later, y.tree? url reference = none) ∧
        History.lastList earlier url = some names ∧ reference ∈ names ∧
        ((∀ y ∈ later, y.list? url = none) → ∀ names', cache.getRefs url = some names' → names' = names)) ∧
    ∀ earlier ctx t extensions later paths, es = earlier ++ .call ctx (.listTree t extensions) :: later →
      (s.listTree ctx t extensions (s.run start earlier)).1 = .ok paths →
        ((s.run start earlier).cache.getTree t.url t.reference).isSome ∨
          ∃ names, History.lastList (s.history start (earlier ++ [.call ctx (.listTree t extensions)])) t.url =
            some names ∧ t.reference ∈ names := by
  intro start cache
  constructor
  · intro url reference paths ht
    have hc : cache = (s.history start es).foldl Cache.follow (.empty enabled) := s.cache_run start es
    rw [hc, Cache.getTree_foldl_follow] at ht
    cases enabled with
    | false => cases ht
    | true =>
      obtain ⟨earlier, x, later, hsplit, hx, hlater⟩ := split_of_tree ht
      have grounded : Grounded (s.history start es) := grounded_history (h := []) .nil rfl es
      obtain ⟨names, hlast, hn⟩ := grounded.of_split hsplit hx
      refine ⟨earlier, x, later, names, hsplit, hx, hlater, hlast, hn, fun unlisted names' hr => ?_⟩
      rw [hc, Cache.getRefs_foldl_follow] at hr
      have hr := lastList_of_refs hr
      -- neither the tree nor what came after it lists references, so the last list is still the same
      have since : lastList (x :: later) url = none := lastList_of_unlisted fun y hy => by
        rcases List.mem_cons.mp hy with rfl | hy
        · exact Happening.list?_of_tree? hx url
        · exact unlisted y hy
      rw [hsplit, lastList_append, since, Option.none_or, hlast] at hr
      cases hr
      rfl
  · intro earlier ctx t extensions later paths _ hok
    have said : s.history start (earlier ++ [.call ctx (.listTree t extensions)]) = s.history start earlier ++
        s.happenings (s.run start earlier) (.call ctx (.listTree t extensions)) := by
      rw [history_append]
      exact congrArg _ (List.append_nil _)
    rw [said]
    exact listed_of_listTree_ok (s.cache_run start earlier) hok

/-- A tree that is remembered outlives its reference: after the tree of one branch, a list has come that only
names another one. Both are remembered, and the tree is still what the call for it answers. -/
theorem tree_outlives_reference :
    let s : Service := ⟨⟨"client", ⟨30000000000⟩⟩, "https://dev.azure.com", fun _ _ _ => pure 0, false⟩
    let whole := fun (text : String) => Coming.after ⟨1⟩
      (⟨200, none, none, ⟨[(⟨1⟩, Utf8.encode text.toList)], .after ⟨0⟩ ()⟩⟩ : Reply)
    let remote : Remote := .scripted (fun _ => true)
      [whole "\x7b\"value\":[\x7b\"name\":\"refs/heads/main\"\x7d]\x7d",
        whole "\x7b\"value\":[\x7b\"objectId\":\"7a\",\"commitId\":\"c1\"\x7d]\x7d",
        whole "\x7b\"treeEntries\":[\x7b\"relativePath\":\"lib.rs\"\x7d]\x7d",
        whole "\x7b\"value\":[\x7b\"name\":\"refs/heads/dev\"\x7d]\x7d"] .never
    let t : Target := ⟨"https://dev.azure.com/org/project/_git/repo", "refs/heads/main", .blank⟩
    let ctx : CallContext := .ofToken ⟨0⟩
    let start : Session := .start remote .empty "archive"
    let es : List Event := [.call ctx (.listTree t []), .call ctx (.listRemote t)]
    let σ := s.run start es
    σ.cache.getRefs t.url = some ["refs/heads/dev"] ∧
      σ.cache.getTree t.url t.reference = some ["lib.rs"] ∧
      History.lastList (s.history start es) t.url = some ["refs/heads/dev"] ∧
      t.reference ∉ ["refs/heads/dev"] ∧
      (s.listTree ctx t [] σ).1.toOption = some ["lib.rs"] := by
  decide +kernel

end Service

end HostedGit
