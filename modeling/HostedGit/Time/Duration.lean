/-
Spans of time, to the nanosecond.
-/
namespace HostedGit

/-- A span of time. -/
structure Duration where
  nanos : Nat
  deriving DecidableEq, Repr, Ord

namespace Duration

/-- A number of seconds. -/
def ofSeconds (n : Nat) : Duration := ⟨n * 1000000000⟩

/-- A number of milliseconds. -/
def ofMilliseconds (n : Nat) : Duration := ⟨n * 1000000⟩

/-- Whole milliseconds of a span. -/
def milliseconds (d : Duration) : Nat := d.nanos / 1000000

/-- Whole seconds of a span. -/
def seconds (d : Duration) : Nat := d.nanos / 1000000000

/-- The longest span that counts seconds in 64 bits. -/
def longest : Duration := ⟨UInt64.size * 1000000000 - 1⟩

end Duration

end HostedGit
