/-
Moments on a clock, tokens that calls can be cancelled by, and what is known of both at a moment: what
time it is, which tokens are cancelled, and which cancellations are still to come.
-/
import HostedGit.Time.Duration

namespace HostedGit

/-! ## Moments -/

/-- A moment, by the time since the clock started. -/
structure Instant where
  nanos : Nat
  deriving DecidableEq, Repr

namespace Instant

/-- The moment at which the clock starts. -/
def start : Instant := ⟨0⟩

/-- The last moment that can be told. -/
def latest : Instant := ⟨UInt64.size / 2 * 1000000000 - 1⟩

/-- The moment a span of time later. -/
def after (i : Instant) (d : Duration) : Instant := ⟨i.nanos + d.nanos⟩

/-- The moment a span of time later, if it can be told. -/
def after? (i : Instant) (d : Duration) : Option Instant :=
  if (i.after d).nanos ≤ latest.nanos then some (i.after d) else none

/-- The earlier of two moments. -/
def earlier (i j : Instant) : Instant := if i.nanos ≤ j.nanos then i else j

/-- The later of two moments. -/
def later (i j : Instant) : Instant := if i.nanos ≤ j.nanos then j else i

/-- Whole seconds since the clock started. -/
def seconds (i : Instant) : Nat := i.nanos / 1000000000

end Instant

/-! ## Tokens -/

/-- What a call is cancelled by. Whoever holds a copy can cancel it, and it is then cancelled for all. -/
structure Token where
  id : Nat
  deriving DecidableEq, Repr

/-- The time, the tokens that are cancelled, and the cancellations that are to come. -/
structure Timeline where
  now : Instant
  cancelled : List Token
  planned : List (Instant × Token)

namespace Timeline

/-- A clock that starts, and nothing cancelled. -/
def start : Timeline := ⟨.start, [], []⟩

/-- Whether a token is cancelled. -/
def isCancelled (t : Timeline) (token : Token) : Bool := t.cancelled.contains token

/-- Cancels a token. -/
def cancel (t : Timeline) (token : Token) : Timeline := { t with cancelled := token :: t.cancelled }

/-- Plans to cancel a token at a moment. -/
def plan (t : Timeline) (moment : Instant) (token : Token) : Timeline :=
  { t with planned := (moment, token) :: t.planned }

/-- Whether a planned cancellation is to have happened by now. -/
def isDue (t : Timeline) (p : Instant × Token) : Bool := p.1.nanos ≤ t.now.nanos

/-- Carries out the planned cancellations that are due. -/
def settle (t : Timeline) : Timeline :=
  { t with
    cancelled := (t.planned.filter t.isDue).map (·.2) ++ t.cancelled
    planned := t.planned.filter (!t.isDue ·) }

/-- Waits until a moment, unless it is past. Cancellations planned for up to then happen. -/
def wait (t : Timeline) (moment : Instant) : Timeline :=
  ({ t with now := t.now.later moment } : Timeline).settle

/-- Sets the clock ahead without anybody waiting: a cancellation that becomes due by it happens when time
passes the next time. -/
def advance (t : Timeline) (d : Duration) : Timeline :=
  let t := t.settle
  { t with now := t.now.after d }

/-- When a token is cancelled, as far as it is known: by now, or at the first moment that is planned. -/
def cancellation? (t : Timeline) (token : Token) : Option Instant :=
  if t.isCancelled token then some t.now
  else
    let moments := (t.planned.filter (·.2 = token)).map fun p => t.now.later p.1
    moments.foldl (fun first m => some (first.elim m m.earlier)) none

end Timeline

end HostedGit
