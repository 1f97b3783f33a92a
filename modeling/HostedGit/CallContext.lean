/-
What bounds a call: a token that its caller may cancel, and perhaps a deadline. A context that has been
left by its time or its caller is left for good, and so is every context made from it.
-/
import HostedGit.Error
import HostedGit.Time.Timeline

namespace HostedGit

/-- A token and perhaps a deadline. -/
structure CallContext where
  token : Token
  deadline : Option Instant
  deriving DecidableEq, Repr

/-- Something that is waited for: the moment it is there, and what it is. -/
structure Arrival (α : Type) where
  moment : Instant
  value : α

namespace CallContext

/-- The context of a token, without a deadline. -/
def ofToken (token : Token) : CallContext := ⟨token, none⟩

/-- A context whose deadline is at most a span of time from now. None if that moment cannot be told. -/
def withTimeout? (c : CallContext) (now : Instant) (d : Duration) : Option CallContext := do
  let candidate ← now.after? d
  return { c with deadline := some (c.deadline.elim candidate candidate.earlier) }

/-- Whether a context still lets calls go on. Being cancelled comes before being late. -/
def check (c : CallContext) (t : Timeline) (step : String) : Except Error Unit :=
  if t.isCancelled c.token then .error .cancelled
  else if c.deadline.any fun d => d.nanos ≤ t.now.nanos then .error (.timeout step)
  else .ok ()

/-- When and by what error the context ends a wait that begins now. -/
def interruption? (c : CallContext) (t : Timeline) (step : String) : Option (Arrival Error) :=
  let late := c.deadline.map fun d => (⟨t.now.later d, .timeout step⟩ : Arrival Error)
  match t.cancellation? c.token with
  | none => late
  | some m =>
    match late with
    | some l => if m.nanos ≤ l.moment.nanos then some ⟨m, .cancelled⟩ else some l
    | none => some ⟨m, .cancelled⟩

/-- What a wait comes to that begins now: what was waited for if it is there no later than the context
ends the wait, and otherwise the context's error. -/
def race {α : Type} (c : CallContext) (t : Timeline) (step : String) (a : Arrival (Except Error α)) :
    Arrival (Except Error α) :=
  match c.interruption? t step with
  | some i => if a.moment.nanos ≤ i.moment.nanos then a else ⟨i.moment, .error i.value⟩
  | none => a

/-- Runs work under a context. `start` begins it: it makes a change and says what is then waited for. Under
a context that is over, nothing is begun. -/
def run {σ α : Type} (c : CallContext) (t : Timeline) (step : String)
    (start : σ → Arrival (Except Error α) × σ) (s : σ) : Arrival (Except Error α) × σ :=
  match c.check t step with
  | .error e => (⟨t.now, .error e⟩, s)
  | .ok () =>
    let (a, s) := start s
    (c.race t step a, s)

end CallContext

end HostedGit
