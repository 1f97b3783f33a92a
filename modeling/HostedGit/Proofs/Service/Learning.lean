/-
What calls learn. All that a call does to the cache follows from the documents that came during it, one
after the other: a list of references or a tree that could be read is put into the cache, and nothing
else changes it. A call that fails has learnt no tree.
-/
import HostedGit.Proofs.Cache.History
import HostedGit.Proofs.Service.Frame

namespace HostedGit

open HostedGit.Action

namespace Session

/-! ## Learning -/

/-- A session and how it may have gone on in a call: documents came, out of replies of the remote, and the
cache learnt from them and from nothing else. -/
structure Learnt (call : Call) (ds : List Document) (s s' : Session) : Prop where
  onward : s.Onward s'
  documents : s'.documents = s.documents ++ ds
  brought : ∀ d ∈ ds, s'.Brought d
  cache : s'.cache = ds.foldl (Cache.learn call) s.cache

theorem Learnt.trans {call : Call} {ds es : List Document} {a b c : Session} (h : Learnt call ds a b)
    (h' : Learnt call es b c) : Learnt call (ds ++ es) a c where
  onward := onward_frame.trans h.onward h'.onward
  documents := by rw [h'.documents, h.documents, List.append_assoc]
  brought d hd := by
    rcases List.mem_append.mp hd with hd | hd
    · exact (h.brought d hd).onward h'.onward
    · exact h'.brought d hd
  cache := by rw [h'.cache, h.cache, List.foldl_append]

/-- Whatever leaves the documents and the cache alone teaches nothing. -/
theorem learnt_nothing (call : Call) : WideFrame (Learnt call []) where
  refl _ := ⟨⟨rfl, List.prefix_refl _⟩, (List.append_nil _).symm, nofun, rfl⟩
  trans h h' := h.trans h'
  log s r := ⟨onward_frame.log s r, (List.append_nil _).symm, nofun, rfl⟩
  wait s m := ⟨onward_frame.wait s m, (List.append_nil _).symm, nofun, rfl⟩
  ask s r := ⟨onward_frame.ask s r, (List.append_nil _).symm, nofun, rfl⟩
  archive _ _ := ⟨⟨rfl, List.prefix_refl _⟩, (List.append_nil _).symm, nofun, rfl⟩
  files _ _ := ⟨⟨rfl, List.prefix_refl _⟩, (List.append_nil _).symm, nofun, rfl⟩
  progress _ _ := ⟨⟨rfl, List.prefix_refl _⟩, (List.append_nil _).symm, nofun, rfl⟩

/-- A document teaches what is put into the cache for it. -/
theorem Learnt.gaining {call : Call} {s s' : Session} {d : Document} (h : Learnt call [] s s')
    (hd : s'.Brought d) : Learnt call [d] s { s'.gaining d with cache := s'.cache.learn call d } where
  onward := ⟨h.onward.remote, h.onward.requests⟩
  documents := by
    show s'.documents ++ [d] = _
    rw [h.documents, List.append_nil]
  brought := by
    intro d' hd'
    cases List.mem_singleton.mp hd'
    exact hd
  cache := by
    show s'.cache.learn call d = _
    rw [h.cache]
    rfl

/-- Going on in a call, and learning from documents of one kind. -/
def LearntOf (P : Document → Prop) (call : Call) (s s' : Session) : Prop :=
  ∃ ds, Learnt call ds s s' ∧ ∀ d ∈ ds, P d

/-- Going on in a call without learning a tree. -/
abbrev LearntNoTree (call : Call) : Session → Session → Prop := LearntOf (·.paths? = none) call

theorem Learnt.of {P : Document → Prop} {call : Call} {s s' : Session} (h : Learnt call [] s s') :
    LearntOf P call s s' := ⟨[], h, nofun⟩

theorem LearntOf.mono {P Q : Document → Prop} {call : Call} {s s' : Session} (h : LearntOf P call s s')
    (hPQ : ∀ d, P d → Q d) : LearntOf Q call s s' := by
  obtain ⟨ds, hl, hd⟩ := h
  exact ⟨ds, hl, fun d hm => hPQ d (hd d hm)⟩

theorem learntOf_frame (P : Document → Prop) (call : Call) : Frame (LearntOf P call) where
  refl s := ((learnt_nothing call).refl s).of
  trans := by
    rintro a b c ⟨ds, h, hds⟩ ⟨es, h', hes⟩
    refine ⟨ds ++ es, h.trans h', fun d hd => ?_⟩
    rcases List.mem_append.mp hd with hd | hd
    · exact hds d hd
    · exact hes d hd
  log s r := ((learnt_nothing call).log s r).of
  wait s m := ((learnt_nothing call).wait s m).of
  ask s r := ((learnt_nothing call).ask s r).of

/-! ## Steps that teach -/

/-- A step of a call that leaves behind what was learnt from documents; if it fails, there is no tree among
them. -/
def Teaches {α : Type} (call : Call) (x : Action Session α) : Prop :=
  ∀ s, ∃ ds, Learnt call ds s (x s).2 ∧ ((∃ e, (x s).1 = .error e) → ∀ d ∈ ds, d.paths? = none)

theorem Teaches.of_keeps {α : Type} {call : Call} {x : Action Session α} (h : Keeps (LearntNoTree call) x) :
    Teaches call x := by
  intro s
  obtain ⟨ds, hl, hd⟩ := h s
  exact ⟨ds, hl, fun _ => hd⟩

/-- A tree comes in a call: as the last document, and for a reference that is among those known by then. -/
structure TreeCame (t : Target) (extensions : List String) (ds : List Document) (d : Document)
    (paths : List String) (s s' : Session) : Prop where
  learnt : Learnt (.listTree t extensions) (ds ++ [d]) s s'
  first : ∀ d' ∈ ds, d'.paths? = none
  paths : d.paths? = some paths
  listed : ∃ names, (ds.filterMap (·.refs?)).getLast?.or (s.cache.getRefs t.url) = some names ∧
    t.reference ∈ names

end Session

namespace Cache

theorem learn_of_refs? {call : Call} {c : Cache} {d : Document} {names : List String}
    (h : d.refs? = some names) : c.learn call d = c.setRefs call.target.url names := by
  unfold learn
  rw [h]

theorem learn_of_none {call : Call} {c : Cache} {d : Document} (h : d.refs? = none) (h' : d.paths? = none) :
    c.learn call d = c := by
  unfold learn
  rw [h, h']
  cases call <;> rfl

theorem learn_of_paths? {t : Target} {extensions : List String} {c : Cache} {d : Document}
    {paths : List String} (h : d.refs? = none) (h' : d.paths? = some paths) :
    c.learn (.listTree t extensions) d = c.setTree t.url t.reference paths := by
  unfold learn
  rw [h, h']

end Cache

namespace Session

theorem Learnt.follow {call : Call} {ds : List Document} {s s' : Session} (h : Learnt call ds s s') :
    s'.cache = (ds.map (Happening.received call)).foldl Cache.follow s.cache := by
  rw [List.foldl_map]
  exact h.cache

theorem unsaid_of_received {call : Call} {ds : List Document} (hd : ∀ d ∈ ds, d.paths? = none)
    (url reference : String) : ∀ x ∈ ds.map (Happening.received call), x.tree? url reference = none := by
  intro x hx
  obtain ⟨d, hm, rfl⟩ := List.mem_map.mp hx
  exact Cache.tree?_of_paths? (hd d hm) call url reference

/-- What learns no tree leaves all trees as they were. -/
theorem Learnt.getTree {call : Call} {ds : List Document} {s s' : Session} (h : Learnt call ds s s')
    (hd : ∀ d ∈ ds, d.paths? = none) (url reference : String) :
    s'.cache.getTree url reference = s.cache.getTree url reference := by
  rw [h.follow]
  exact Cache.getTree_foldl_of_unsaid (unsaid_of_received hd url reference) _

/-- A tree that comes is remembered under the URL and the reference that it was asked for with. -/
theorem TreeCame.getTree {t : Target} {extensions : List String} {ds : List Document} {d : Document}
    {paths : List String} {s s' : Session} (h : TreeCame t extensions ds d paths s s') (url reference : String) :
    s'.cache.getTree url reference =
      if s.cache.enabled ∧ url = t.url ∧ reference = t.reference then some paths
      else s.cache.getTree url reference := by
  have last (c : Cache) : c.follow (.received (.listTree t extensions) d) = c.setTree t.url t.reference paths :=
    Cache.learn_of_paths? (Cache.refs?_eq_none_of_paths? h.paths) h.paths
  rw [h.learnt.follow, List.map_append, List.foldl_append, List.map_cons, List.map_nil, List.foldl_cons,
    List.foldl_nil, last, Cache.getTree_setTree, Cache.enabled_foldl_follow,
    Cache.getTree_foldl_of_unsaid (unsaid_of_received h.first url reference)]

end Session

namespace Service

open Session

/-! ## References -/

theorem refs?_of_decoded {d : Document} (hs : d.step = "list refs") (h2 : Status.isSuccess d.status = true) :
    d.refs? = (Payload.decodeRefs d.body).toOption := by
  unfold Document.refs? Payload.decodeRefs
  rw [if_pos ⟨hs, h2⟩]
  cases Json.decode (Payload.valueList Payload.gitRef) d.body <;> rfl

/-- References are remembered as they came. -/
theorem refreshRefs_outcome (s : Service) (ctx : CallContext) (r : Repository) (call : Call) (σ : Session) :
    (∃ e σ', s.refreshRefs ctx r call.target.url σ = (.error e, σ') ∧ LearntNoTree call σ σ') ∨
      ∃ d names σ', s.refreshRefs ctx r call.target.url σ = (.ok names, σ') ∧ Learnt call [d] σ σ' ∧
        d.refs? = some names ∧ d.paths? = none := by
  unfold refreshRefs
  obtain ⟨σ', hσ, ⟨e, hf⟩ | ⟨d, hstep, hd, hf⟩⟩ := fetchRefs_reads s ctx r _ (learnt_nothing call).toFrame σ
  · exact .inl ⟨e, σ', bind_error hf, hσ.of⟩
  -- the document came before it was read, and is remembered only if it can be
  have hrefs := refs?_of_decoded hstep hd.isSuccess
  have hpaths : d.paths? = none := Document.paths?_of_step (by rw [hstep]; decide)
  have hl := hσ.gaining hd
  cases hdec : Payload.decodeRefs d.body with
  | error e =>
    rw [hdec] at hf hrefs
    rw [Cache.learn_of_none hrefs hpaths] at hl
    exact .inl ⟨_, _, bind_error hf, [d], hl, fun d' hd' => by cases List.mem_singleton.mp hd'; exact hpaths⟩
  | ok names =>
    rw [hdec] at hf hrefs
    rw [Cache.learn_of_refs? hrefs] at hl
    exact .inr ⟨d, names, _, bind_ok hf, hl.trans ((learnt_nothing call).log _ _), hrefs, hpaths⟩

theorem refreshRefs_learns (s : Service) (ctx : CallContext) (r : Repository) (call : Call) :
    Keeps (LearntNoTree call) (s.refreshRefs ctx r call.target.url) := by
  intro σ
  rcases refreshRefs_outcome s ctx r call σ with ⟨e, σ', h, hl⟩ | ⟨d, names, σ', h, hl, -, hp⟩
  · rw [h]
    exact hl
  · rw [h]
    exact ⟨[d], hl, fun d' hd' => by cases List.mem_singleton.mp hd'; exact hp⟩

theorem knownRefs_learns (s : Service) (ctx : CallContext) (r : Repository) (call : Call) :
    Keeps (LearntNoTree call) (s.knownRefs ctx r call.target.url) := by
  intro σ
  cases hc : σ.cache.getRefs call.target.url with
  | some names =>
    rw [knownRefs_of_some hc]
    exact ((learnt_nothing call).log _ _).of
  | none =>
    rw [knownRefs_of_none hc]
    exact refreshRefs_learns s ctx r call σ

/-- The known references are the last ones that came, or those that were remembered. -/
theorem knownRefs_ok {s : Service} {ctx : CallContext} {r : Repository} (call : Call) {σ σ' : Session}
    {names : List String} (h : s.knownRefs ctx r call.target.url σ = (.ok names, σ')) :
    ∃ ds, Learnt call ds σ σ' ∧ (∀ d ∈ ds, d.paths? = none) ∧
      (ds.filterMap (·.refs?)).getLast?.or (σ.cache.getRefs call.target.url) = some names := by
  cases hc : σ.cache.getRefs call.target.url with
  | some names' =>
    rw [knownRefs_of_some hc] at h
    cases h
    exact ⟨[], (learnt_nothing call).log _ _, nofun, rfl⟩
  | none =>
    rw [knownRefs_of_none hc] at h
    rcases refreshRefs_outcome s ctx r call σ with ⟨e, σ₁, hx, -⟩ | ⟨d, names', σ₁, hx, hl, hd, hp⟩
    · rw [hx] at h
      cases h
    · rw [hx] at h
      cases h
      refine ⟨[d], hl, fun d' hd' => ?_, ?_⟩
      · cases List.mem_singleton.mp hd'
        exact hp
      · rw [List.filterMap_cons_some hd]
        rfl

/-! ## Trees -/

/-- The items of a version are not remembered. -/
theorem getItems_learns (s : Service) (ctx : CallContext) (r : Repository) (u : Url) (call : Call) :
    Keeps (LearntOf (fun d => d.refs? = none ∧ d.paths? = none) call)
      (s.client.getDocument ctx u r.credentials "get repository root item" "Azure items" Payload.decodeItems) := by
  intro σ
  obtain ⟨σ', hσ, ⟨e, hx⟩ | ⟨d, hstep, hd, hx⟩⟩ := s.client.getDocument_reads ctx u r.credentials
    "get repository root item" "Azure items" Payload.decodeItems _ (learnt_nothing call).toFrame σ
  · rw [hx]
    exact hσ.of
  · rw [hx]
    have hr : d.refs? = none := Document.refs?_of_step (by rw [hstep]; decide)
    have hp : d.paths? = none := Document.paths?_of_step (by rw [hstep]; decide)
    have hl := hσ.gaining hd
    rw [Cache.learn_of_none hr hp] at hl
    exact ⟨[d], hl, fun d' hd' => by cases List.mem_singleton.mp hd'; exact ⟨hr, hp⟩⟩

/-- The root of a version is not remembered. -/
theorem fetchRoot_learns (s : Service) (ctx : CallContext) (r : Repository) (reference : String) (call : Call) :
    Keeps (LearntOf (fun d => d.refs? = none ∧ d.paths? = none) call) (s.fetchRoot ctx r reference) := by
  have hF := learntOf_frame (fun d => d.refs? = none ∧ d.paths? = none) call
  rw [fetchRoot_eq]
  exact hF.bind (hF.keeps_resource s r _) fun u => hF.bind (getItems_learns s ctx r u call) fun items =>
    hF.keeps_settleRoot r reference items

theorem fetchRoot_learns_noTree (s : Service) (ctx : CallContext) (r : Repository) (reference : String)
    (call : Call) : Keeps (LearntNoTree call) (s.fetchRoot ctx r reference) :=
  fun σ => (fetchRoot_learns s ctx r reference call σ).mono fun _ h => h.2

theorem paths?_of_decoded {d : Document} (hs : d.step = "list tree") (h2 : Status.isSuccess d.status = true) :
    d.paths? = (Payload.decodeTree d.body).toOption := by
  unfold Document.paths?
  rw [if_pos ⟨hs, h2⟩]

/-- A tree is remembered as it came. -/
theorem keepTree_outcome (s : Service) (ctx : CallContext) (r : Repository) (t : Target)
    (extensions : List String) (objectId text : String) (σ : Session) :
    let x : Action Session (List String) := do
      let paths ← s.fetchTree ctx r objectId
      Action.log .debug (text ++ toString paths.length ++ " tree entries")
      remember (·.setTree t.url t.reference paths)
      return paths
    (∃ e σ', x σ = (.error e, σ') ∧ LearntNoTree (.listTree t extensions) σ σ') ∨
      ∃ d paths σ', x σ = (.ok paths, σ') ∧ Learnt (.listTree t extensions) [d] σ σ' ∧
        d.paths? = some paths := by
  intro x
  obtain ⟨σ', hσ, ⟨e, hx⟩ | ⟨d, hstep, hd, hx⟩⟩ :=
    fetchTree_reads s ctx r objectId _ (learnt_nothing (.listTree t extensions)).toFrame σ
  · exact .inl ⟨e, σ', bind_error hx, hσ.of⟩
  have hrefs : d.refs? = none := Document.refs?_of_step (by rw [hstep]; decide)
  have hpaths := paths?_of_decoded hstep hd.isSuccess
  have hl := hσ.gaining hd
  cases hdec : Payload.decodeTree d.body with
  | error e =>
    rw [hdec] at hx hpaths
    rw [Cache.learn_of_none hrefs hpaths] at hl
    exact .inl ⟨_, _, bind_error hx, [d], hl, fun d' hd' => by cases List.mem_singleton.mp hd'; exact hpaths⟩
  | ok paths =>
    rw [hdec] at hx hpaths
    rw [Cache.learn_of_paths? hrefs hpaths] at hl
    -- after the tree has been remembered nothing fails any more
    exact .inr ⟨d, paths, _, bind_ok hx, hl.trans ((learnt_nothing _).log _ _), hpaths⟩

theorem fetchPaths_outcome (s : Service) (ctx : CallContext) (r : Repository) (t : Target)
    (extensions : List String) (σ : Session) :
    (∃ e σ', s.fetchPaths ctx r t σ = (.error e, σ') ∧ LearntNoTree (.listTree t extensions) σ σ') ∨
      ∃ ds d paths σ', s.fetchPaths ctx r t σ = (.ok paths, σ') ∧ TreeCame t extensions ds d paths σ σ' := by
  rcases hk : s.knownRefs ctx r t.url σ with ⟨e | names, σ₁⟩
  · exact .inl ⟨e, σ₁, bind_error hk, (knownRefs_learns s ctx r (.listTree t extensions)).of_eq hk⟩
  obtain ⟨ds, hds, hd, known⟩ := knownRefs_ok (.listTree t extensions) hk
  by_cases hn : t.reference ∈ names
  · rw [fetchPaths_of_listed hk hn]
    rcases hr : s.fetchRoot ctx r t.reference σ₁ with ⟨e | root, σ₂⟩
    · have later := (fetchRoot_learns_noTree s ctx r t.reference (.listTree t extensions)).of_eq hr
      exact .inl ⟨e, σ₂, bind_error hr, (learntOf_frame _ _).trans ⟨ds, hds, hd⟩ later⟩
    obtain ⟨es, hes, he⟩ := (fetchRoot_learns s ctx r t.reference (.listTree t extensions)).of_eq hr
    have rooted := hds.trans hes
    have first : ∀ d ∈ ds ++ es, d.paths? = none := by
      intro d hm
      rcases List.mem_append.mp hm with hm | hm
      · exact hd d hm
      · exact (he d hm).2
    rw [bind_ok hr]
    rcases keepTree_outcome s ctx r t extensions root.objectId _ σ₂ with ⟨e, σ', hx, hl⟩ |
      ⟨d, paths, σ', hx, hl, hp⟩
    · exact .inl ⟨e, σ', hx, (learntOf_frame _ _).trans ⟨ds ++ es, rooted, first⟩ hl⟩
    · refine .inr ⟨ds ++ es, d, paths, σ', hx, rooted.trans hl, first, hp, names, ?_, hn⟩
      have none_later : es.filterMap (·.refs?) = [] := List.filterMap_eq_nil_iff.mpr fun d hm => (he d hm).1
      rw [List.filterMap_append, none_later, List.append_nil]
      exact known
  · exact .inl ⟨_, σ₁, fetchPaths_of_unlisted hk hn, ds, hds, hd⟩

/-! ## Calls -/

/-- How a call for a tree ends: in an error, and with no tree; with the tree that was remembered; or with one
that came. -/
theorem listTree_outcome (s : Service) (ctx : CallContext) (t : Target) (extensions : List String) (σ : Session) :
    (∃ e σ', s.listTree ctx t extensions σ = (.error e, σ') ∧ LearntNoTree (.listTree t extensions) σ σ') ∨
      (∃ paths σ', σ.cache.getTree t.url t.reference = some paths ∧
        s.listTree ctx t extensions σ = (.ok (PathFilter.select extensions paths), σ') ∧
        Learnt (.listTree t extensions) [] σ σ') ∨
      ∃ ds d paths σ', s.listTree ctx t extensions σ = (.ok (PathFilter.select extensions paths), σ') ∧
        TreeCame t extensions ds d paths σ σ' := by
  cases hl : Locator.parse t.url with
  | error cause =>
    exact .inl ⟨_, σ, bind_error (repository_error hl σ), (learntOf_frame _ _).refl σ⟩
  | ok l =>
    cases hc : σ.cache.getTree t.url t.reference with
    | some paths =>
      exact .inr (.inl ⟨paths, _, rfl, listTree_of_some hl hc, (learnt_nothing _).log _ _⟩)
    | none =>
      rcases fetchPaths_outcome s ctx ⟨l, Credentials.select t.credentials l.embedded⟩ t extensions σ with
        ⟨e, σ', hx, hlearnt⟩ | ⟨ds, d, paths, σ', hx, came⟩
      · exact .inl ⟨e, σ', (listTree_of_none hl hc).trans (bind_error hx), hlearnt⟩
      · exact .inr (.inr ⟨ds, d, paths, σ', (listTree_of_none hl hc).trans (bind_ok hx), came⟩)

theorem listTree_teaches (s : Service) (ctx : CallContext) (t : Target) (extensions : List String) :
    Teaches (.listTree t extensions) (s.listTree ctx t extensions) := by
  intro σ
  rcases listTree_outcome s ctx t extensions σ with ⟨e, σ', hx, ds, hl, hd⟩ | ⟨paths, σ', -, hx, hl⟩ |
    ⟨ds, d, paths, σ', hx, came⟩
  · rw [hx]
    exact ⟨ds, hl, fun _ => hd⟩
  · rw [hx]
    exact ⟨[], hl, nofun⟩
  · rw [hx]
    exact ⟨ds ++ [d], came.learnt, nofun⟩

/-- Only a call for a tree learns one. -/
theorem perform_learns_noTree (s : Service) (ctx : CallContext) (call : Call)
    (h : ∀ t, call ≠ .removeCache t) (ht : ∀ t extensions, call ≠ .listTree t extensions) :
    Keeps (LearntNoTree call) (s.perform ctx call) := by
  have hF := learntOf_frame (·.paths? = none) call
  cases call with
  | listRemote t => exact hF.bind (hF.keeps_repository t) fun r => refreshRefs_learns s ctx r (.listRemote t)
  | listTree t extensions => exact absurd rfl (ht t extensions)
  | latestCommit t =>
    refine hF.bind (hF.keeps_repository t) fun r => ?_
    refine hF.bind (fetchRoot_learns_noTree s ctx r t.reference _) fun item => ?_
    exact hF.bind (hF.keeps_log _ _) fun _ => hF.keeps_pure _
  | download t destination => exact fun σ => ((learnt_nothing _).keeps_download s ctx t destination σ).of
  | removeCache t => exact absurd rfl (h t)

/-- Every call but the one to forget leaves behind what it learnt from documents. -/
theorem perform_teaches (s : Service) (ctx : CallContext) (call : Call) (h : ∀ t, call ≠ .removeCache t) :
    Teaches call (s.perform ctx call) := by
  cases call with
  | listTree t extensions => exact listTree_teaches s ctx t extensions
  | _ => exact .of_keeps (perform_learns_noTree s ctx _ h nofun)

end Service

end HostedGit
