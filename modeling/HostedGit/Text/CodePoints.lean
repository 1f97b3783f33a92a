/-
Sets of code points, as ranges. A set is written as a text of hexadecimal numbers and ranges such as
`a0 300-36f`, cut by spaces and line ends.
-/
import HostedGit.Text.Digits

namespace HostedGit

/-- Ranges of code points, both ends included. -/
structure CodePoints where
  ranges : List (Nat × Nat)

namespace CodePoints

/-- A number, or zero for a text that is none. -/
def number (cs : List Char) : Nat := (Digits.number? 16 cs).getD 0

/-- Reads a number or a range. -/
def readRange (cs : List Char) : Nat × Nat :=
  (number (cs.takeWhile (· ≠ '-')),
    number (if cs.contains '-' then (cs.dropWhile (· ≠ '-')).drop 1 else cs))

/-- Reads a set. -/
def ofText (text : String) : CodePoints :=
  ⟨((text.toList.splitOnP fun c => c = ' ' || c = '\n').filter (!·.isEmpty)).map readRange⟩

/-- Whether a character is in the set. -/
def contains (s : CodePoints) (c : Char) : Bool :=
  s.ranges.any fun r => r.1 ≤ c.toNat && c.toNat ≤ r.2

end CodePoints

end HostedGit
