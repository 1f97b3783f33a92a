/-
Maps from code points to short texts, as ranges. A map is written as rows such as `c0-d6:e0`, cut by
spaces and line ends: with `:` each code point of a range goes as far on as the first one does, with `/`
only every second one of them does, and with `=` all of them go to one place. Where a text has more than
one code point, they are cut by `.`.
-/
import HostedGit.Text.CodePoints

namespace HostedGit

/-- How the code points of a row go on. -/
inductive CodeStep where
  | each
  | second
  | none
  deriving DecidableEq

/-- A range of code points, both ends included, and what its first one goes to. -/
structure CodeRow where
  first : Nat
  last : Nat
  step : CodeStep
  targets : List Nat

/-- A map from code points to short texts. -/
structure CodeMap where
  rows : List CodeRow

namespace CodeRow

/-- The mark of a step. -/
def step? : Char → Option CodeStep
  | ':' => some .each
  | '/' => some .second
  | '=' => some .none
  | _ => Option.none

/-- Reads a row. -/
def ofChars? (cs : List Char) : Option CodeRow := do
  let isMark (c : Char) := (step? c).isSome
  let (first, last) := CodePoints.readRange (cs.takeWhile (!isMark ·))
  match cs.dropWhile (!isMark ·) with
  | [] => failure
  | mark :: targets => return ⟨first, last, ← step? mark, (targets.splitOn '.').map CodePoints.number⟩

/-- What a code point goes to. -/
def lookup? (r : CodeRow) (n : Nat) : Option (List Char) :=
  let texts (d : Nat) := r.targets.map fun t => Char.ofNat (t + d)
  if n < r.first ∨ r.last < n then none
  else
    match r.step with
    | .each => some (texts (n - r.first))
    | .second => if (n - r.first) % 2 = 0 then some (texts (n - r.first)) else none
    | .none => some (texts 0)

end CodeRow

namespace CodeMap

/-- Reads a map. -/
def ofText (text : String) : CodeMap :=
  ⟨((text.toList.splitOnP fun c => c = ' ' || c = '\n').filter (!·.isEmpty)).filterMap
    CodeRow.ofChars?⟩

/-- What a character goes to. -/
def lookup? (m : CodeMap) (c : Char) : Option (List Char) := m.rows.findSome? (·.lookup? c.toNat)

/-- The first character that goes to a text, in a map whose rows have one code point each. -/
def keyOf? (m : CodeMap) (cs : List Char) : Option Char :=
  (m.rows.find? (·.targets = cs.map Char.toNat)).map fun r => Char.ofNat r.first

end CodeMap

end HostedGit
