/-
Callers that the remote rejects. All requests of one call bear the same header. A remote that answers them
all with 401 answers no call that has to ask for something; but a tree that is remembered is handed to any
caller, whoever it came for. It came for a caller whose requests are not all rejected.
-/
import HostedGit.Proofs.Endpoint
import HostedGit.Proofs.Service.Offhand
import HostedGit.Proofs.Service.Remembered
import HostedGit.Proofs.Session.Steady
import Mathlib.Data.List.Induction

namespace HostedGit

open HostedGit.Action Session

/-! ## Headers -/

/-- The header that the requests of a call bear: credentials within the base URL come first, then those of the
call, then those within the repository's URL. -/
def Service.header? (s : Service) (t : Target) : Option String :=
  match Url.parse s.baseUrl.toList, Locator.parse t.url with
  | .ok base, .ok l => Client.authorization? base (Credentials.select t.credentials l.embedded)
  | _, _ => none

theorem Service.header?_eq {s : Service} {t : Target} {l : Locator} {e : Endpoint} {u : Url}
    (hl : Locator.parse t.url = .ok l) (hu : e.url s.baseUrl l = .ok u) :
    Client.authorization? u (Credentials.select t.credentials l.embedded) = s.header? t := by
  unfold header?
  cases hb : Url.parse s.baseUrl.toList with
  | error cause =>
    unfold Endpoint.url at hu
    rw [hb] at hu
    cases hu
  | ok base =>
    obtain ⟨ha, -⟩ := Endpoint.authority_of_url hb hu
    rw [hl]
    unfold Client.authorization? Client.ownCredentials?
    rw [ha]

/-- Every request with a header, or without one, is answered 401. -/
def Rejects (reply : String → Option String → Coming Reply) (header : Option String) : Prop :=
  ∀ target, ∃ delay r, reply target header = .after delay r ∧ r.status = 401

/-! ## Exchanges that are rejected -/

namespace Client

variable {reaches : Url → Bool} {reply : String → Option String → Coming Reply} {c : Client}
  {ctx : CallContext} {step : String} {u : Url} {σ σ' : Session}

theorem exchange_of_rejects {limit : Instant} {more : Nat} {authorization : Option String} {r : Reply}
    (h : Rejects reply authorization) (hσ : σ.remote = .fixed reaches reply)
    (hx : c.exchange ctx step limit more authorization u σ = (.ok r, σ')) : r.status = 401 := by
  unfold exchange at hx
  rcases bind_cases hx with ⟨q, σ₁, hq, hx⟩ | ⟨e, -, he⟩
  · have rejected : q.status = 401 := by
      obtain ⟨⟨delay, hq⟩, -⟩ := Session.await_ok hq
      unfold ask at hq
      rw [hσ] at hq
      split at hq
      · obtain ⟨delay', r', hr, hs⟩ := h (.ofList u.target)
        have hq : reply (.ofList u.target) authorization = .after delay q := hq
        rw [hr] at hq
        cases hq
        exact hs
      · cases hq
    -- 401 is not the status of a redirection
    have stays : redirection? u q = none := by
      unfold redirection?
      rw [rejected]
      rfl
    rw [stays] at hx
    cases hx
    exact rejected
  · cases he

theorem get_of_rejects {credentials : Option Credentials} (h : Rejects reply (authorization? u credentials))
    (hσ : σ.remote = .fixed reaches reply) : Fails (fun _ => True) (c.get ctx u credentials step) σ := by
  unfold Fails
  rw [get_eq]
  let σ₀ : Session := Journal.add ⟨.debug, "GET " ++ u.toString ++ " (" ++ step ++ ")"⟩ σ
  rcases hx : c.exchange ctx step (σ.timeline.now.after c.requestTimeout) mostRedirections
    (authorization? u credentials) u σ₀ with ⟨e | r, σ₁⟩
  · exact ⟨e, σ₁, bind_error hx, trivial⟩
  · have rejected := exchange_of_rejects (σ := σ₀) h hσ hx
    rw [bind_ok hx]
    unfold settleReply
    rw [rejected]
    exact ⟨_, _, rfl, trivial⟩

end Client

namespace Service

variable {s : Service} {reaches : Url → Bool} {reply : String → Option String → Coming Reply} {ctx : CallContext}
  {σ : Session}

/-! ## Calls that are rejected -/

theorem perform_of_rejects (ctx : CallContext) (c : Call) (h : Rejects reply (s.header? c.target))
    (hσ : σ.remote = .fixed reaches reply) :
    s.Offhand σ.cache c (s.perform ctx c σ).1 ∨ Fails (fun _ => True) (s.perform ctx c) σ := by
  refine perform_of_silenced (fun _ _ => trivial) (fun _ _ _ => trivial) fun l hl σ' _ hr e u step hu => ?_
  refine Client.get_of_rejects ?_ (hr.trans hσ)
  rw [header?_eq hl hu]
  exact h

/-- A call for a tree that is rejected is only answered with a tree that is remembered, and asks nothing. -/
theorem listTree_of_rejects {t : Target} {extensions answer : List String} (h : Rejects reply (s.header? t))
    (hσ : σ.remote = .fixed reaches reply) (hok : (s.listTree ctx t extensions σ).1 = .ok answer) :
    ∃ paths, σ.cache.getTree t.url t.reference = some paths ∧ answer = PathFilter.select extensions paths ∧
      (s.listTree ctx t extensions σ).2.requests = σ.requests ∧
      (s.listTree ctx t extensions σ).2.documents = σ.documents := by
  have hl : ∃ l, Locator.parse t.url = .ok l := by
    cases hl : Locator.parse t.url with
    | ok l => exact ⟨l, rfl⟩
    | error cause =>
      have failed : s.listTree ctx t extensions σ = _ := bind_error (repository_error hl σ)
      rw [failed] at hok
      cases hok
  obtain ⟨l, hl⟩ := hl
  rcases perform_of_rejects ctx (.listTree t extensions) h hσ with offhand | ⟨e, σ', hx, -⟩
  · have hok' : (s.perform ctx (.listTree t extensions) σ).1 = .ok answer := hok
    rw [hok'] at offhand
    obtain ⟨paths, hp, rfl⟩ := offhand.remembered_of_ok
    rw [listTree_of_some hl hp]
    exact ⟨paths, hp, rfl, rfl, rfl⟩
  · have failed : (s.listTree ctx t extensions σ).1 = .error e := congrArg Prod.fst hx
    rw [failed] at hok
    cases hok

/-! ## Where trees come from -/

/-- A tree came in a call for it, which was answered with it. -/
def Handed (s : Service) (ctx : CallContext) (t : Target) (extensions paths : List String) (σ : Session) : Prop :=
  (s.listTree ctx t extensions σ).1 = .ok (PathFilter.select extensions paths) ∧
    ∃ ds d, TreeCame t extensions ds d paths σ (s.listTree ctx t extensions σ).2

/-- A tree that is there after an event came in it, or was there before and was not forgotten. -/
theorem getTree_after_cases {e : Event} {url reference : String} {paths : List String}
    (h : (s.after σ e).cache.getTree url reference = some paths) :
    (σ.cache.getTree url reference = some paths ∧
      ∀ ctx t, e = .call ctx (.removeCache t) → ¬ (t.url = url ∧ t.reference = reference)) ∨
    ∃ ctx t extensions, e = .call ctx (.listTree t extensions) ∧ t.url = url ∧ t.reference = reference ∧
      s.Handed ctx t extensions paths σ := by
  cases e with
  | call ctx call =>
    have other (hc : ∀ t, call ≠ .removeCache t) (ht : ∀ t extensions, call ≠ .listTree t extensions) :
        σ.cache.getTree url reference = some paths := by
      obtain ⟨ds, hl, hd⟩ := perform_learns_noTree s ctx call hc ht σ
      exact (hl.getTree hd url reference).symm.trans h
    cases call with
    | removeCache t =>
      have forgotten : (s.after σ (.call ctx (.removeCache t))).cache = σ.cache.invalidate t.url t.reference := rfl
      rw [forgotten, Cache.getTree_invalidate] at h
      split at h
      · cases h
      · rename_i ht
        refine .inl ⟨h, fun ctx' t' he => ?_⟩
        cases he
        exact fun ht' => ht ⟨ht'.1.symm, ht'.2.symm⟩
    | listTree t extensions =>
      have hx : (s.after σ (.call ctx (.listTree t extensions))) = (s.listTree ctx t extensions σ).2 := rfl
      rw [hx] at h
      rcases listTree_outcome s ctx t extensions σ with ⟨e, σ', hx, ds, hl, hd⟩ | ⟨paths', σ', -, hx, hl⟩ |
        ⟨ds, d, paths', σ', hx, tree⟩
      · rw [hx, hl.getTree hd] at h
        exact .inl ⟨h, nofun⟩
      · rw [hx, hl.getTree nofun] at h
        exact .inl ⟨h, nofun⟩
      · have came : TreeCame t extensions ds d paths' σ (s.listTree ctx t extensions σ).2 := by
          rw [hx]
          exact tree
        rw [came.getTree] at h
        split at h
        · rename_i ht
          cases h
          exact .inr ⟨ctx, t, extensions, rfl, ht.2.1.symm, ht.2.2.symm, congrArg Prod.fst hx, ds, d, came⟩
        · exact .inl ⟨h, nofun⟩
    | _ => exact .inl ⟨other nofun nofun, nofun⟩
  | _ => exact .inl ⟨h, nofun⟩

/-- A tree that is there after a run in which none was there before came in one of its calls, and was not
forgotten since. -/
theorem handed_of_getTree {es : List Event} {url reference : String} {paths : List String}
    (hσ : σ.cache.getTree url reference = none) (h : (s.run σ es).cache.getTree url reference = some paths) :
    ∃ first ctx t extensions later, es = first ++ .call ctx (.listTree t extensions) :: later ∧
      t.url = url ∧ t.reference = reference ∧ s.Handed ctx t extensions paths (s.run σ first) ∧
      ∀ ctx' t', .call ctx' (.removeCache t') ∈ later → ¬ (t'.url = url ∧ t'.reference = reference) := by
  -- from the end of the run: its last event brings the tree, or leaves it there
  induction es using List.reverseRecOn with
  | nil =>
    rw [run_nil, hσ] at h
    cases h
  | append_singleton es e ih =>
    rw [run_append] at h
    rcases getTree_after_cases h with ⟨before, kept⟩ | ⟨ctx, t, extensions, rfl, hu, hr, handed⟩
    · obtain ⟨first, ctx, t, extensions, later, rfl, hu, hr, handed, unforgotten⟩ := ih before
      refine ⟨first, ctx, t, extensions, later ++ [e], by simp, hu, hr, handed, fun ctx' t' hm => ?_⟩
      rcases List.mem_append.mp hm with hm | hm
      · exact unforgotten ctx' t' hm
      · exact kept ctx' t' (List.mem_singleton.mp hm).symm
    · exact ⟨es, ctx, t, extensions, [], rfl, hu, hr, handed, nofun⟩

/-- Nothing comes in a call that is rejected. -/
theorem not_rejects_of_handed {t : Target} {extensions paths : List String} (hσ : σ.remote = .fixed reaches reply)
    (h : s.Handed ctx t extensions paths σ) : ¬ Rejects reply (s.header? t) := by
  intro rejects
  obtain ⟨hok, ds, d, came⟩ := h
  obtain ⟨paths', -, -, -, same⟩ := listTree_of_rejects rejects hσ hok
  -- a tree comes in a document, and a call that asks for nothing gets none
  have more := came.learnt.documents
  rw [same] at more
  simpa using congrArg List.length more

/-- With a remote that replies by what is asked for and by whom alone, and after any run, a call that the
remote rejects is not answered, but for one: for a tree that is remembered. It is answered with that tree, and
asks for nothing; the tree came in an earlier call for the same URL and reference that was not rejected, and
was not forgotten since. -/
theorem rejected_gets_only_remembered (s : Service) (reaches : Url → Bool)
    (reply : String → Option String → Coming Reply) (σ : Session) (enabled : Bool) (es : List Event) :
    let start := { σ with remote := .fixed reaches reply, cache := .empty enabled }
    let now := s.run start es
    (∀ ctx c, Rejects reply (s.header? c.target) → (∀ t, c ≠ .removeCache t) →
      (∀ t extensions, c ≠ .listTree t extensions) → ∃ e, (s.perform ctx c now).1 = .error e) ∧
    ∀ ctx t extensions answer, Rejects reply (s.header? t) → (s.listTree ctx t extensions now).1 = .ok answer →
      ∃ paths, now.cache.getTree t.url t.reference = some paths ∧ answer = PathFilter.select extensions paths ∧
        (s.listTree ctx t extensions now).2.requests = now.requests ∧
        ∃ first ctx' t' extensions' later, es = first ++ .call ctx' (.listTree t' extensions') :: later ∧
          t'.url = t.url ∧ t'.reference = t.reference ∧ s.Handed ctx' t' extensions' paths (s.run start first) ∧
          ¬ Rejects reply (s.header? t') ∧
          ∀ ctx'' t'', .call ctx'' (.removeCache t'') ∈ later →
            ¬ (t''.url = t.url ∧ t''.reference = t.reference) := by
  intro start now
  have remote (es : List Event) : (s.run start es).remote = .fixed reaches reply := (s.run_onward start es).remote
  constructor
  · intro ctx c rejects hc ht
    rcases perform_of_rejects ctx c rejects (remote es) with offhand | ⟨e, σ', hx, -⟩
    · cases hr : (s.perform ctx c now).1 with
      | error e => exact ⟨e, rfl⟩
      | ok answer =>
        rw [hr] at offhand
        exact absurd offhand (Offhand.not_ok hc ht)
    · exact ⟨e, congrArg Prod.fst hx⟩
  · intro ctx t extensions answer rejects hok
    obtain ⟨paths, hp, ha, hq, -⟩ := listTree_of_rejects rejects (remote es) hok
    have nothing : start.cache.getTree t.url t.reference = none := Cache.getTree_empty ..
    obtain ⟨first, ctx', t', extensions', later, hes, hu, hr, handed, unforgotten⟩ :=
      handed_of_getTree nothing hp
    exact ⟨paths, hp, ha, hq, first, ctx', t', extensions', later, hes, hu, hr, handed,
      not_rejects_of_handed (remote first) handed, unforgotten⟩

/-- A caller whose requests are all rejected is shown the tree that came for another one. -/
theorem remembered_tree_shown_to_rejected :
    let s : Service := ⟨⟨"client", ⟨30000000000⟩⟩, "https://dev.azure.com", fun _ _ _ => pure 0, false⟩
    let alice : Credentials := ⟨"alice", "secret"⟩
    let mallory : Credentials := ⟨"mallory", "guess"⟩
    let body := Utf8.encode ("\x7b\"value\":[\x7b\"name\":\"main\",\"objectId\":\"7a\",\"commitId\":\"c1\"\x7d]," ++
      "\"treeEntries\":[\x7b\"relativePath\":\"lib.rs\"\x7d]\x7d").toList
    let reply := fun (_ : String) (header : Option String) => Coming.after ⟨1⟩
      (if header = some (Client.basicAuthorization alice) then ⟨200, none, none, ⟨[(⟨1⟩, body)], .after ⟨0⟩ ()⟩⟩
        else ⟨401, none, none, ⟨[], .after ⟨0⟩ ()⟩⟩ : Reply)
    let t := fun (who : Credentials) => (⟨"https://dev.azure.com/org/project/_git/repo", "main", who⟩ : Target)
    let ctx : CallContext := .ofToken ⟨0⟩
    let start : Session := .start (.fixed (fun _ => true) reply) .empty "archive"
    Rejects reply (s.header? (t mallory)) ∧
      (s.listTree ctx (t mallory) [] (s.run start [.call ctx (.listTree (t alice) [])])).1.toOption =
        some ["lib.rs"] := by
  intro s alice mallory body reply t ctx start
  constructor
  · intro target
    have other : s.header? (t mallory) ≠ some (Client.basicAuthorization alice) := by decide +kernel
    refine ⟨⟨1⟩, _, rfl, ?_⟩
    rw [if_neg other]
  · decide +kernel

end Service

end HostedGit
