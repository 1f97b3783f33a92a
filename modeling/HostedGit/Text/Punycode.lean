/-
Punycode: text as ASCII letters, digits and hyphens. The ASCII characters come first; after the last
hyphen, each other character is said by how many steps there are from the one before it, counting every
place that every smaller character could have been put in.
-/
import HostedGit.Text.Cut

namespace HostedGit.Punycode

/-! ## Digits -/

/-- The digit of a number below 36. -/
def digit (n : Nat) : Char := if n < 26 then Char.ofNat (97 + n) else Char.ofNat (22 + n)

/-- The number of a digit, letters in either case. -/
def value? (c : Char) : Option Nat :=
  if c.isLower then some (c.toNat - 97)
  else if c.isUpper then some (c.toNat - 65)
  else if c.isDigit then some (c.toNat - 22)
  else none

/-- The least digit that has others after it, at the place that counts up by 36 for each digit. -/
def threshold (place bias : Nat) : Nat := max 1 (min 26 (place - bias))

theorem threshold_pos (place bias : Nat) : 1 ≤ threshold place bias := by unfold threshold; omega

/-- Divides a number of steps until it is small. Answers the rest and 36 for each division. -/
def shrink (steps count : Nat) : Nat × Nat :=
  if 455 < steps then shrink (steps / 35) (count + 36) else (steps, count)
termination_by steps
decreasing_by omega

/-- The bias after a number of steps, with `size` characters there. -/
def adapt (steps size : Nat) (isFirst : Bool) : Nat :=
  let steps := if isFirst then steps / 700 else steps / 2
  let (rest, count) := shrink (steps + steps / size) 0
  count + 36 * rest / (rest + 38)

/-! ## Reading -/

/-- The code point that is counted from: the first that is not ASCII. -/
def firstCode : Nat := 128

/-- The bias at the start. -/
def firstBias : Nat := 72

/-- Reads a number of steps, and what follows it. -/
def readSteps (bias place weight sum : Nat) : List Char → Option (Nat × List Char)
  | [] => none
  | c :: rest => do
    let d ← value? c
    let t := threshold place bias
    if d < t then some (sum + d * weight, rest)
    else readSteps bias (place + 36) (weight * (36 - t)) (sum + d * weight) rest

theorem length_of_readSteps {bias place weight sum : Nat} {cs : List Char} {r : Nat × List Char}
    (h : readSteps bias place weight sum cs = some r) : r.2.length < cs.length := by
  induction cs generalizing place weight sum with
  | nil => simp [readSteps] at h
  | cons c rest ih =>
    simp only [readSteps, Option.bind_eq_bind, Option.bind_eq_some_iff] at h
    obtain ⟨d, -, h⟩ := h
    split at h
    · cases h; simp
    · have := ih h; simp only [List.length_cons]; omega

/-- A character put at a place. -/
def insertAt (cs : List Char) (i : Nat) (c : Char) : List Char := cs.take i ++ c :: cs.drop i

/-- Reads steps up to the end and puts the characters in. `code` and `place` are where counting is. -/
def readAll (code place bias : Nat) (out cs : List Char) : Option (List Char) :=
  if cs.isEmpty then some out
  else
    match h : readSteps bias 36 1 0 cs with
    | none => none
    | some (steps, rest) =>
      let size := out.length + 1
      let code := code + (place + steps) / size
      let place := (place + steps) % size
      if code.isValidChar then
        readAll code (place + 1) (adapt steps size (out.all fun c => c.toNat < firstCode))
          (insertAt out place (Char.ofNat code)) rest
      else none
termination_by cs.length
decreasing_by exact length_of_readSteps h

/-- The text that is written in Punycode. -/
def decode? (cs : List Char) : Option (List Char) :=
  match Text.cutLast? '-' cs with
  | some (c :: plain, rest) => readAll firstCode 0 firstBias (c :: plain) rest
  | _ => readAll firstCode 0 firstBias [] cs

/-! ## Writing -/

/-- Writes a number of steps. -/
def writeSteps (bias place steps : Nat) : List Char :=
  let t := threshold place bias
  if steps < t then [digit steps]
  else digit (t + (steps - t) % (36 - t)) :: writeSteps bias (place + 36) ((steps - t) / (36 - t))
termination_by steps
decreasing_by
  have := threshold_pos place bias
  exact Nat.lt_of_le_of_lt (Nat.div_le_self _ _) (by omega)

/-- How far writing is: what is written, the steps since the last character, the bias, and how many
characters are said. -/
structure Progress where
  out : List Char
  steps : Nat
  bias : Nat
  size : Nat

/-- Counts past a character of the text while `code` is looked for, or writes the steps up to it. -/
def Progress.pass (plain code : Nat) (p : Progress) (c : Char) : Progress :=
  if c.toNat < code then { p with steps := p.steps + 1 }
  else if c.toNat = code then
    { out := p.out ++ writeSteps p.bias 36 p.steps
      steps := 0
      bias := adapt p.steps (p.size + 1) (p.size = plain)
      size := p.size + 1 }
  else p

/-- Looks for a code point in the whole text, after `before` was the last one looked for. -/
def Progress.find (text : List Char) (plain before code : Nat) (p : Progress) : Progress :=
  let p := text.foldl (Progress.pass plain code)
    { p with steps := p.steps + (code - before) * (p.size + 1) }
  { p with steps := p.steps + 1 }

/-- Writes the code points of a list, in its order. -/
def writeAll (text : List Char) (plain before : Nat) (p : Progress) : List Nat → List Char
  | [] => p.out
  | code :: rest => writeAll text plain (code + 1) (p.find text plain before code) rest

/-- A text in Punycode. -/
def encode (text : List Char) : List Char :=
  let plain := text.filter fun c => c.toNat < firstCode
  let codes := ((text.filter fun c => firstCode ≤ c.toNat).map Char.toNat).mergeSort.eraseDups
  let start : Progress := ⟨[], 0, firstBias, plain.length⟩
  plain ++ (if plain.isEmpty then [] else ['-']) ++
    writeAll text plain.length firstCode start codes

end HostedGit.Punycode
