/-
The program as a front end of the resolver. What its words do not say it takes from the environment; what they ask for
is one call to a fresh resolver over the service, and how the run ends is told by how that call ends.
-/
import HostedGit.Program
import HostedGit.Proofs.Action
import HostedGit.Proofs.CommandLine.Environment

namespace HostedGit

open HostedGit.Action

/-! ## Commands -/

/-- The call that a command stands for with credentials, and the lines that its answer is printed in. -/
inductive Command.StandsFor (k : Credentials) : Command → (call : Call) → (call.Answer → List String) → Prop
  | listRemote (url : String) : StandsFor k (listRemote url) (.listRemote ⟨url, "", k⟩) fun names => names
  | tree (url reference : String) (extensions : List String) :
    StandsFor k (tree url reference extensions) (.listTree ⟨url, reference, k⟩ extensions) fun paths => paths
  | commit (url reference : String) :
    StandsFor k (commit url reference) (.latestCommit ⟨url, reference, k⟩) fun commit => [commit]
  | download (url destination : String) (reference : Option String) :
    StandsFor k (download url destination reference) (.download ⟨url, reference.getD "", k⟩ destination) fun _ => []

/-- Help or the version is asked for, and nothing is wrong. -/
inductive UsageError.IsQuestion : UsageError → Prop
  | help : IsQuestion help
  | version (command : Option CommandName) : IsQuestion (version command)

namespace Program

theorem standsFor_callOf (a : Arguments) : a.command.StandsFor (credentials a) (callOf a) (linesOf (callOf a)) := by
  obtain ⟨_, _, _, _, _, _, command⟩ := a
  cases command with
  | listRemote url => exact .listRemote url
  | tree url reference extensions => exact .tree url reference extensions
  | commit url reference => exact .commit url reference
  | download url destination reference => exact .download url destination reference

/-! ## The resolver -/

/-- What a command line says nothing of keeps its default. -/
theorem kept_of_build {a : Arguments} {c : Config} (h : a.settings.build = .ok c) :
    c.cacheEnabled = true ∧ c.userAgent = Config.default.userAgent := by
  unfold Settings.build at h
  dsimp only at h
  split at h
  · cases h
  · split at h
    · cases h
    · split at h
      · cases h
      · cases h
        exact ⟨rfl, rfl⟩

/-- With a user agent that requests can announce, there is a service; nothing is asked for it. -/
theorem ofConfig_ok {c : Config} (h : c.hasLegalUserAgent = true) (extractor : Extractor) (isTold : Bool)
    (σ : Session) : ∃ service σ₀, Service.ofConfig c extractor isTold σ = (.ok service, σ₀) ∧
      σ₀ = { σ with cache := .empty c.cacheEnabled, log := σ₀.log } := by
  unfold Service.ofConfig Client.ofConfig
  rw [h]
  cases c.acceptInvalidCerts <;> exact ⟨_, _, rfl, rfl⟩

/-! ## Ends -/

/-- How a run ends that was to answer in lines: its exit code tells an answer from a cancellation and from any other
error, and it prints all lines of the answer, or nothing. -/
structure Ends (out : Outcome) (outcome : Except Error (List String)) : Prop where
  answered : out.exitCode = 0 ↔ ∃ texts, outcome = .ok texts
  cancelled : out.exitCode = 130 ↔ outcome = .error .cancelled
  failed : out.exitCode = 1 ↔ ∃ e, outcome = .error e ∧ e ≠ .cancelled
  output : out.output = match outcome with
    | .ok texts => String.join (texts.map (· ++ "\n"))
    | .error _ => ""

/-- How a run ends whose call came to this. -/
def ofOutcome : Except Error (List String) → Outcome
  | .ok texts => ⟨0, lines texts, ""⟩
  | .error e => ofError e

theorem ends (outcome : Except Error (List String)) : Ends (ofOutcome outcome) outcome := by
  cases outcome with
  | ok texts => exact ⟨by simp [ofOutcome], by simp [ofOutcome], by simp [ofOutcome], rfl⟩
  | error e =>
    by_cases h : e = .cancelled
    · subst h
      exact ⟨by simp [ofOutcome, ofError], by simp [ofOutcome, ofError], by simp [ofOutcome, ofError], rfl⟩
    · have failed : ofOutcome (.error e) = ⟨1, "", "Error: " ++ e.message ++ "\n"⟩ := by
        cases e <;> first | rfl | exact absurd rfl h
      rw [failed]
      exact ⟨by simp, by simp [h], by simp [h], rfl⟩

theorem ofUsageError_cases (e : UsageError) : e.IsQuestion ∧ (ofUsageError e).exitCode = 0 ∨
    ¬ e.IsQuestion ∧ (ofUsageError e).exitCode = 2 ∧ (ofUsageError e).output = "" := by
  cases e with
  | help => exact .inl ⟨.help, rfl⟩
  | version command => exact .inl ⟨.version command, rfl⟩
  | _ => exact .inr ⟨nofun, rfl, rfl⟩

/-! ## Runs -/

theorem run_of_ok {env : Environment} {words : List String} {a : Arguments} (h : Arguments.parse env words = .ok a)
    (σ : Session) : run env words σ = (ofOutcome (perform a σ).1, (perform a σ).2) := by
  rw [run, h]
  show StateT.bind (perform a) _ σ = _
  unfold StateT.bind
  rcases perform a σ with ⟨_ | texts, σ'⟩ <;> rfl

theorem perform_of_refused {a : Arguments} {e : ConfigError} (hb : a.settings.build = .error e) (σ : Session) :
    perform a σ = (.error (.config e), σ) := by
  rw [perform, hb]
  rfl

theorem perform_of_build {a : Arguments} {c : Config} (hb : a.settings.build = .ok c) {service : Service}
    {σ σ₀ : Session} (hs : Service.ofConfig c Extract.archive false σ = (.ok service, σ₀)) :
    let done := (Resolver.empty.register service.toProvider).perform (callOf a) (.ofToken token) σ₀
    perform a σ = (done.1.map (linesOf (callOf a)), done.2) := by
  intro done
  have made : resolver c σ = (.ok (Resolver.empty.register service.toProvider), σ₀) := bind_ok hs
  have performed : perform a = (do
      let r ← resolver c
      return linesOf (callOf a) (← r.perform (callOf a) (.ofToken token))) := by
    unfold perform
    rw [hb]
  rw [performed, bind_ok made, bind_pure_apply]

/-- Whatever the words, the environment and the remote are: a command line that is not read, and settings that are
refused, end the run before anything is touched. Any other run is one call to a fresh resolver of those settings, with
the words as they are given and with credentials that the environment may fill in; it leaves the session as that call
does and ends as that call ends. -/
theorem run_is_one_call (env : Environment) (words : List String) (σ : Session) :
    let (out, σ') := run env words σ
    match Arguments.parse .silent words with
    | .error e => σ' = σ ∧
        (e.IsQuestion ∧ out.exitCode = 0 ∨ ¬ e.IsQuestion ∧ out.exitCode = 2 ∧ out.output = "")
    | .ok a => match a.settings.build with
      | .error _ => σ' = σ ∧ out.exitCode = 1 ∧ out.output = ""
      | .ok c => ∃ service σ₀ call texts, Service.ofConfig c Extract.archive false σ = (.ok service, σ₀) ∧
          σ₀ = { σ with cache := .empty true, log := σ₀.log } ∧
          a.command.StandsFor ⟨(a.username <|> env.username).getD "", (a.password <|> env.password).getD ""⟩
            call texts ∧
          let done := (Resolver.empty.register service.toProvider).perform call (.ofToken token) σ₀
          σ' = done.2 ∧ Ends out (done.1.map texts) := by
  rcases Arguments.parse_cases env words with ⟨a, alone, read⟩ | ⟨e, e', alone, refused, reason⟩
  · rw [alone, run_of_ok read]
    dsimp only
    cases hb : a.settings.build with
    | error e =>
      have failed : perform (a.under env) σ = (.error (.config e), σ) := perform_of_refused (a := a.under env) hb σ
      rw [failed]
      exact ⟨rfl, rfl, rfl⟩
    | ok c =>
      obtain ⟨cached, agent⟩ := kept_of_build hb
      have legal : c.hasLegalUserAgent = true := by rw [Config.hasLegalUserAgent, agent]; decide
      obtain ⟨service, σ₀, made, fresh⟩ := ofConfig_ok legal Extract.archive false σ
      rw [cached] at fresh
      refine ⟨service, σ₀, callOf (a.under env), linesOf _, made, fresh, standsFor_callOf (a.under env), ?_⟩
      rw [perform_of_build (a := a.under env) hb made]
      exact ⟨rfl, ends _⟩
  · rw [alone]
    have stopped : run env words σ = (ofUsageError e', σ) := by rw [run, refused]; rfl
    rw [stopped]
    refine ⟨rfl, ?_⟩
    rcases reason with rfl | ⟨rfl, rfl⟩
    · exact ofUsageError_cases e'
    · exact ofUsageError_cases .nothingGiven

end Program

end HostedGit
