/-
What the passwords given with calls change. A session with a resolver over the service is taken twice, with two
passwords for each call. All that it tells and leaves behind comes out alike, as long as the remotes reply alike; the
requests differ in the header alone that shows who makes them.
-/
import HostedGit.Proofs.Resolver
import HostedGit.Proofs.Service.Parallel
import HostedGit.Proofs.Service.Rejected
import HostedGit.Proofs.Session.Twin

namespace HostedGit

open HostedGit.Action Session

/-! ## Passwords -/

/-- The same target with another password. -/
def Target.withPassword (w : String) (t : Target) : Target :=
  { t with credentials := { t.credentials with password := w } }

/-- The same call with another password. -/
def Call.withPassword (w : String) : Call → Call
  | listRemote t => listRemote (t.withPassword w)
  | listTree t extensions => listTree (t.withPassword w) extensions
  | latestCommit t => latestCommit (t.withPassword w)
  | download t destination => download (t.withPassword w) destination
  | removeCache t => removeCache (t.withPassword w)

theorem Call.url_withPassword (w : String) (c : Call) : (c.withPassword w).target.url = c.target.url := by
  cases c <;> rfl

/-! ## What is told -/

/-- What a step tells: an answer or an error, and nothing of what it was asked with. -/
inductive Told where
  | names (outcome : Except Error (List String))
  | commit (outcome : Except Error String)
  | done (outcome : Except Error Unit)
  | provider (outcome : Except Error String)
  | nothing

/-- What the outcome of a call tells. -/
def Told.ofOutcome : (c : Call) → Except Error c.Answer → Told
  | .listRemote _, outcome | .listTree _ _, outcome => names outcome
  | .latestCommit _, outcome => commit outcome
  | .download _ _, outcome | .removeCache _, outcome => done outcome

/-- A failure tells of the kind of its call alone. -/
theorem Told.ofOutcome_error (e : Error) (w w' : String) (c : Call) :
    ofOutcome (c.withPassword w) (.error e) = ofOutcome (c.withPassword w') (.error e) := by
  cases c <;> rfl

/-- Takes a step for what it tells. It does not fail: an error is told like an answer. -/
def Session.telling {α : Type} (f : Except Error α → Told) (x : Action Session α) : Action Session Told := fun σ =>
  (.ok (f (x σ).1), (x σ).2)

/-- Makes a call for what it tells. -/
def Provider.tell (p : Provider Session) (ctx : CallContext) (c : Call) : Action Session Told :=
  telling (Told.ofOutcome c) (p.perform c ctx)

variable {J : Line → Line → Prop}

theorem Session.Parallel.telling {α : Type} {x x' : Action Session α} (hx : Parallel J x x')
    (f : Except Error α → Told) : Parallel J (telling f x) (telling f x') := by
  intro σ l h
  obtain ⟨l', same, h'⟩ := hx σ l h
  refine ⟨l', ?_, h'⟩
  unfold Session.telling
  rw [same]

/-! ## Calls -/

/-- A provider that answers a call alike with two passwords. -/
def Provider.Discreet (J : Line → Line → Prop) (p : Provider Session) (ctx : CallContext) (c : Call) (w w' : String) :
    Prop :=
  Parallel J (p.tell ctx (c.withPassword w)) (p.tell ctx (c.withPassword w'))

namespace Service

variable {s : Service} {ctx : CallContext} {H : Headers} {w w' : String}

theorem askAlike_withPassword {t : Target} (hN : H none none)
    (hH : H (s.header? (t.withPassword w)) (s.header? (t.withPassword w'))) :
    AskAlike (Line.Twin H) s ctx (t.withPassword w) (t.withPassword w') where
  url := rfl
  reference := rfl
  comes l hl e u step he := by
    have hl' : Locator.parse (t.withPassword w').url = .ok l := hl
    refine s.client.get_twin ctx step hN ?_
    rw [header?_eq hl he, header?_eq hl' he]
    exact hH

/-- The service sees a password in the header alone that it makes of it. -/
theorem discreet {c : Call} (hN : H none none)
    (hH : H (s.header? (c.withPassword w).target) (s.header? (c.withPassword w').target)) :
    s.toProvider.Discreet (Line.Twin H) ctx c w w' := by
  cases c with
  | listRemote t => exact (listRemote_parallel (askAlike_withPassword hN hH)).telling Told.names
  | listTree t extensions => exact (listTree_parallel (askAlike_withPassword hN hH) extensions).telling Told.names
  | latestCommit t => exact (latestCommit_parallel (askAlike_withPassword hN hH)).telling Told.commit
  | download t destination => exact (download_parallel (askAlike_withPassword hN hH) destination).telling Told.done
  | removeCache t => exact (Parallel.of_quiet (removeCache_quiet t)).telling Told.done

end Service

/-! ## Sessions -/

namespace Resolver

variable {r : Resolver Session}

/-- A resolver answers a call alike, if the provider that it finds does. -/
theorem discreet {ctx : CallContext} {c : Call} {w w' : String}
    (h : ∀ p, r.find? c.target.url = some p → p.Discreet J ctx c w w') : r.toProvider.Discreet J ctx c w w' := by
  have found (w : String) : r.find? (c.withPassword w).target.url = r.find? c.target.url := by rw [c.url_withPassword]
  unfold Provider.Discreet
  cases hr : r.find? c.target.url with
  | some p =>
    have handed (w : String) : r.toProvider.tell ctx (c.withPassword w) = (do
        Action.log .debug ("Using '" ++ p.name ++ "' provider for " ++ redact c.target.url)
        p.tell ctx (c.withPassword w)) := by
      have performed : r.toProvider.perform (c.withPassword w) ctx = _ := perform_of_find? ((found w).trans hr) ctx
      unfold Provider.tell
      rw [performed, c.url_withPassword]
      rfl
    rw [handed, handed]
    exact .bind (.of_quiet (.log _ _)) fun _ => h p hr
  | none =>
    by_cases hc : ∃ t, c = .removeCache t
    · obtain ⟨t, rfl⟩ := hc
      have performed (w : String) : r.perform (.removeCache (t.withPassword w)) ctx =
          Action.log .debug ("No provider caches " ++ redact t.url) := removeCache_of_none ((found w).trans hr) ctx
      have logged : Quiet (Action.log .debug ("No provider caches " ++ redact t.url)) := .log _ _
      show Parallel J (telling Told.done (r.perform (.removeCache (t.withPassword w)) ctx))
        (telling Told.done (r.perform (.removeCache (t.withPassword w')) ctx))
      rw [performed, performed]
      exact (Parallel.of_quiet logged).telling Told.done
    · have failed (w : String) : r.toProvider.tell ctx (c.withPassword w) =
          pure (Told.ofOutcome (c.withPassword w) (.error (.unsupportedUrl (redact c.target.url)))) := by
        have performed : r.toProvider.perform (c.withPassword w) ctx = _ :=
          perform_of_none ((found w).trans hr) (by cases c <;> simp_all [Call.withPassword]) ctx
        unfold Provider.tell
        rw [performed, c.url_withPassword]
        rfl
      rw [failed, failed, Told.ofOutcome_error]
      exact .of_quiet (.pure _)

/-- What is done with a resolver, and what happens meanwhile: a call is made, or the provider for a URL is looked up;
time passes or tokens are cancelled, or others change the files. -/
inductive Step where
  | call (ctx : CallContext) (c : Call)
  | find (url : String)
  | pass (f : Timeline → Timeline)
  | alter (f : FileTree → FileTree)

/-- The same step with another password. -/
def Step.withPassword (w : String) : Step → Step
  | call ctx c => call ctx (c.withPassword w)
  | step => step

/-- Takes a step. -/
def take (r : Resolver Session) : Step → Action Session Told
  | .call ctx c => r.toProvider.tell ctx c
  | .find url => telling (fun p => .provider (p.map (·.name))) (r.providerFor url)
  | .pass f => do
    modify fun σ => { σ with timeline := f σ.timeline }
    return .nothing
  | .alter f => do
    modify fun σ => { σ with files := f σ.files }
    return .nothing

/-- A step, and the passwords that it is taken with in two sessions. -/
structure Entry where
  step : Step
  first : String
  second : String

/-- The headers that stand for each other in the two sessions of a plan: none for none, and otherwise those that some
call has with its first password and with its second one. -/
inductive Pairs (s : Service) (plan : List Entry) : Headers
  | none : Pairs s plan .none .none
  | call {ctx : CallContext} {c : Call} {w w' : String} (h : ⟨.call ctx c, w, w'⟩ ∈ plan) :
    Pairs s plan (s.header? (c.withPassword w).target) (s.header? (c.withPassword w').target)

/-- A step is told of, even if a call fails. -/
theorem take_ok (r : Resolver Session) (step : Step) (σ : Session) : ∃ told σ', r.take step σ = (.ok told, σ') := by
  cases step <;> exact ⟨_, _, rfl⟩

theorem mapM_take_ok (r : Resolver Session) (step : Entry → Step) (plan : List Entry) (σ : Session) :
    ∃ told σ', (plan.mapM fun entry => r.take (step entry)) σ = (.ok told, σ') ∧ told.length = plan.length := by
  induction plan generalizing σ with
  | nil => exact ⟨[], σ, rfl, rfl⟩
  | cons entry plan ih =>
    obtain ⟨told, σ₁, taken⟩ := r.take_ok (step entry) σ
    obtain ⟨rest, σ₂, all, counted⟩ := ih σ₁
    rw [List.mapM_cons, bind_ok taken, bind_ok all]
    exact ⟨told :: rest, σ₂, rfl, congrArg (· + 1) counted⟩

theorem providerFor_quiet (r : Resolver Session) (url : String) : Quiet (r.providerFor url) := by
  unfold providerFor
  cases r.find? url with
  | some p => exact .bind (.log _ _) fun _ => .pure p
  | none => exact .throw _

/-- A step comes out alike with its two passwords. -/
theorem take_parallel {step : Step} {w w' : String} (h : ∀ ctx c, step = .call ctx c → ∀ p,
    r.find? c.target.url = some p → p.Discreet J ctx c w w') :
    Parallel J (r.take (step.withPassword w)) (r.take (step.withPassword w')) := by
  cases step with
  | call ctx c => exact discreet (h ctx c rfl)
  | find url => exact (Parallel.of_quiet (r.providerFor_quiet url)).telling fun p => .provider (p.map (·.name))
  | pass f => exact .of_quiet fun _ _ => rfl
  | alter f => exact .of_quiet fun _ _ => rfl

/-- So do all steps of a plan, one after the other. -/
theorem mapM_take_parallel {plan : List Entry} (h : ∀ entry ∈ plan, ∀ ctx c, entry.step = .call ctx c → ∀ p,
    r.find? c.target.url = some p → p.Discreet J ctx c entry.first entry.second) :
    Parallel J (plan.mapM fun entry => r.take (entry.step.withPassword entry.first))
      (plan.mapM fun entry => r.take (entry.step.withPassword entry.second)) := by
  induction plan with
  | nil => exact .of_quiet (.pure [])
  | cons entry plan ih =>
    rw [List.forall_mem_cons] at h
    rw [List.mapM_cons, List.mapM_cons]
    exact .bind (take_parallel h.1) fun told => .bind (ih h.2) fun rest => .of_quiet (.pure _)

/-- Two sessions with a resolver over the service, which differ in the passwords given with calls and in remotes that
reply alike, tell the same step by step, and leave the same behind: the time, the documents, the cache, the files, the
log and what was told of transfers. Their requests are the same but for the header, and each header is what its
session's password makes of a call. -/
theorem passwords_show_in_headers_only (s : Service) (plan : List Entry) {σ : Session} {R : Remote}
    (hσ : σ.requests = []) (hR : σ.remote.Twin (Pairs s plan) R) :
    let r := Resolver.empty.register s.toProvider
    let first := (plan.mapM fun entry => r.take (entry.step.withPassword entry.first)) σ
    let second := (plan.mapM fun entry => r.take (entry.step.withPassword entry.second)) { σ with remote := R }
    (∃ told, first.1 = .ok told ∧ second.1 = .ok told ∧ told.length = plan.length) ∧
      second.2 = first.2.on second.2.line ∧
      List.Forall₂ (Request.Twin (Pairs s plan)) first.2.requests second.2.requests := by
  intro r first second
  have discreet : ∀ entry ∈ plan, ∀ ctx c, entry.step = .call ctx c → ∀ p, r.find? c.target.url = some p →
      p.Discreet (Line.Twin (Pairs s plan)) ctx c entry.first entry.second := by
    rintro ⟨step, w, w'⟩ planned ctx c rfl p found
    rw [find?_register_empty] at found
    obtain ⟨-, only⟩ := Option.ite_none_right_eq_some.mp found
    cases only
    exact Service.discreet .none (.call planned)
  have start : σ.line.Twin (Pairs s plan) ⟨R, σ.requests⟩ := ⟨hR, by rw [line, hσ]; exact .nil⟩
  obtain ⟨l, same, twin⟩ := mapM_take_parallel discreet σ _ start
  have same : second = (first.1, first.2.on l) := same
  obtain ⟨told, σ', taken, counted⟩ := r.mapM_take_ok (fun entry => entry.step.withPassword entry.first) plan σ
  have answered : first.1 = .ok told := congrArg Prod.fst taken
  rw [same]
  exact ⟨⟨told, answered, answered, counted⟩, rfl, twin.requests⟩

/-- One call is answered and one is not, with either password; only the headers tell the sessions apart. -/
theorem passwords_show_in_headers_only_scripted :
    let s : Service := ⟨⟨"client", ⟨30000000000⟩⟩, "https://dev.azure.com", fun _ _ _ => pure 0, true⟩
    let t : Target := ⟨"https://dev.azure.com/org/project/_git/repo", "main", ⟨"me", ""⟩⟩
    let plan : List Entry := [⟨.call (.ofToken ⟨0⟩) (.listRemote t), "one", "two"⟩,
      ⟨.call (.ofToken ⟨0⟩) (.latestCommit t), "two", "a:b"⟩]
    let body := Utf8.encode "\x7b\"value\":[\x7b\"name\":\"main\"\x7d]\x7d".toList
    let remote : Remote := .scripted (fun _ => true)
      [.after ⟨1⟩ ⟨200, none, none, ⟨[(⟨1⟩, body)], .after ⟨0⟩ ()⟩⟩] (.after ⟨1⟩ ⟨404, none, none, ⟨[], .never⟩⟩)
    let σ : Session := .start remote .empty "archive"
    let r := Resolver.empty.register s.toProvider
    let first := (plan.mapM fun entry => r.take (entry.step.withPassword entry.first)) σ
    let second := (plan.mapM fun entry => r.take (entry.step.withPassword entry.second)) { σ with remote := remote }
    (σ.requests = [] ∧ σ.remote.Twin (Pairs s plan) remote) ∧ second.2.log = first.2.log ∧
      first.2.requests.map (·.authorization) =
        [some (Client.basicAuthorization ⟨"me", "one"⟩), some (Client.basicAuthorization ⟨"me", "two"⟩)] ∧
      second.2.requests.map (·.authorization) =
        [some (Client.basicAuthorization ⟨"me", "two"⟩), some (Client.basicAuthorization ⟨"me", "a:b"⟩)] := by
  intro s t plan body remote σ r first second
  have twin : σ.remote.Twin (Pairs s plan) remote := Remote.twin_scripted ..
  obtain ⟨-, same, -⟩ := passwords_show_in_headers_only s plan rfl twin
  have off (σ : Session) (l : Line) : (σ.on l).log = σ.log := rfl
  exact ⟨⟨rfl, twin⟩, (congrArg Session.log same).trans (off _ _), by decide +kernel, by decide +kernel⟩

end Resolver

end HostedGit
