/-
Runs of a service: calls one after the other, with time passing and tokens being cancelled between them.
A run starts from any session, so that its remote may give any replies, and ends in the session that all
of them have left behind.
-/
import HostedGit.Service

namespace HostedGit

/-- What happens to a session: a call, under a context; or time passes, or a token is cancelled, now or at
a moment to come. -/
inductive Event where
  | call (ctx : CallContext) (c : Call)
  | advance (d : Duration)
  | cancel (token : Token)
  | plan (moment : Instant) (token : Token)

namespace Service

/-- The session after an event. -/
def after (s : Service) (σ : Session) : Event → Session
  | .call ctx c => (s.perform ctx c σ).2
  | .advance d => { σ with timeline := σ.timeline.advance d }
  | .cancel token => { σ with timeline := σ.timeline.cancel token }
  | .plan moment token => { σ with timeline := σ.timeline.plan moment token }

/-- The session after a run. -/
def run (s : Service) (σ : Session) (es : List Event) : Session := es.foldl s.after σ

@[simp] theorem run_nil (s : Service) (σ : Session) : s.run σ [] = σ := rfl

@[simp] theorem run_cons (s : Service) (σ : Session) (e : Event) (es : List Event) :
    s.run σ (e :: es) = s.run (s.after σ e) es := rfl

/-- A run that goes on is one run after the other. -/
theorem run_append (s : Service) (σ : Session) (es es' : List Event) :
    s.run σ (es ++ es') = s.run (s.run σ es) es' := List.foldl_append

/-- A call and how it was answered. -/
abbrev Answered := (c : Call) × Except Error c.Answer

/-- The answers of a run. -/
def answers (s : Service) : Session → List Event → List Answered
  | _, [] => []
  | σ, .call ctx c :: es => ⟨c, (s.perform ctx c σ).1⟩ :: answers s (s.after σ (.call ctx c)) es
  | σ, e :: es => answers s (s.after σ e) es

end Service

end HostedGit
