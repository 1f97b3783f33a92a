/-
What can be wrong with a JSON text, where it is, and the readers that everything else is built from. A
reader takes the octets that are left and answers a value with the octets that are left after it; that
these are fewer is part of its type, so that every loop over members or elements ends.
-/
import HostedGit.Octets
import HostedGit.Text.Utf8

namespace HostedGit.Json

/-- What is wrong. -/
inductive Problem where
  | endInValue
  | endInList
  | endInObject
  | endInString
  | expectedValue
  | expectedLiteral
  | expectedColon
  | expectedListEnd
  | expectedObjectEnd
  | trailingComma
  | trailingCharacters
  | keyNotString
  | invalidNumber
  | numberTooLarge
  | invalidEscape
  | unpairedHigh
  | unpairedLow
  | controlCharacter
  | invalidUtf8
  | wrongType (found expected : List Char)
  | missingField (name : String)
  | duplicateField (name : String)
  | wrongLength (length : Nat) (expected : String)
  deriving DecidableEq, Repr

/-- How a problem is worded. -/
def Problem.message : Problem → String
  | endInValue => "EOF while parsing a value"
  | endInList => "EOF while parsing a list"
  | endInObject => "EOF while parsing an object"
  | endInString => "EOF while parsing a string"
  | expectedValue => "expected value"
  | expectedLiteral => "expected ident"
  | expectedColon => "expected \x60:\x60"
  | expectedListEnd => "expected \x60,\x60 or \x60]\x60"
  | expectedObjectEnd => "expected \x60,\x60 or \x60\x7d\x60"
  | trailingComma => "trailing comma"
  | trailingCharacters => "trailing characters"
  | keyNotString => "key must be a string"
  | invalidNumber => "invalid number"
  | numberTooLarge => "number out of range"
  | invalidEscape => "invalid escape"
  | unpairedHigh => "unexpected end of hex escape"
  | unpairedLow => "lone leading surrogate in hex escape"
  | controlCharacter => "control character (\\u0000-\\u001F) found while parsing a string"
  | invalidUtf8 => "invalid unicode code point"
  | wrongType found expected =>
    "invalid type: " ++ String.ofList found ++ ", expected " ++ String.ofList expected
  | missingField name => "missing field \x60" ++ name ++ "\x60"
  | duplicateField name => "duplicate field \x60" ++ name ++ "\x60"
  | wrongLength length expected =>
    "invalid length " ++ toString length ++ ", expected " ++ expected

/-- A problem, and how many octets are left after the place where it is. -/
structure Failure where
  problem : Problem
  left : Nat
  deriving DecidableEq, Repr

/-- A problem in a whole text. -/
structure Error where
  problem : Problem
  line : Nat
  column : Nat
  deriving DecidableEq, Repr

/-- How a problem and its place are worded. -/
def Error.message (e : Error) : String :=
  e.problem.message ++ " at line " ++ toString e.line ++ " column " ++ toString e.column

/-- The place of a failure: lines count from one, a column is the number of octets on the line. -/
def Failure.locate (f : Failure) (body : Octets) : Error :=
  let read := body.take (body.length - f.left)
  let lines := read.splitOn 0x0A
  ⟨f.problem, lines.length, (lines.getLastD []).length⟩

/-! ## Readers -/

/-- What may be left after something was read off `s`. -/
abbrev Rest (s : Octets) := { r : Octets // r.length < s.length }

/-- What may be left after something, or nothing, was read off `s`. -/
abbrev Tail (s : Octets) := { r : Octets // r.length ≤ s.length }

/-- All of `s`, where nothing was read. -/
def Tail.whole (s : Octets) : Tail s := ⟨s, Nat.le_refl _⟩

/-- A reader of values. -/
abbrev Reader (α : Type) := (s : Octets) → Except Failure (α × Rest s)

/-- A failure at the place that has been reached. -/
def failAt {α : Type} (p : Problem) (s : Octets) : Except Failure α := .error ⟨p, s.length⟩

/-- A failure at the octet that comes next, or at the end. -/
def failNext {α : Type} (p : Problem) (s : Octets) : Except Failure α := .error ⟨p, s.length - 1⟩

/-- Blanks, tabs and line ends. -/
def isSpace (b : UInt8) : Bool := b = 0x20 || b = 0x0A || b = 0x09 || b = 0x0D

theorem lt_cons_self {b : UInt8} {s : Octets} : s.length < (b :: s).length := Nat.lt_succ_self _

theorem le_cons_self {b : UInt8} {s : Octets} : s.length ≤ (b :: s).length := Nat.le_succ _

theorem lt_cons_of_lt {b : UInt8} {r s : Octets} (h : r.length < s.length) :
    r.length < (b :: s).length := Nat.lt_succ_of_lt h

theorem lt_cons_of_le {b : UInt8} {r s : Octets} (h : r.length ≤ s.length) :
    r.length < (b :: s).length := Nat.lt_succ_of_le h

theorem le_cons_of_le {b : UInt8} {r s : Octets} (h : r.length ≤ s.length) :
    r.length ≤ (b :: s).length := Nat.le_succ_of_le h

theorem length_dropWhile_le (p : UInt8 → Bool) (s : Octets) : (s.dropWhile p).length ≤ s.length := by
  induction s with
  | nil => exact Nat.le_refl _
  | cons b rest ih =>
    rw [List.dropWhile_cons]
    split
    · exact le_cons_of_le ih
    · exact Nat.le_refl _

/-- What is left after blanks. -/
def skipSpace (s : Octets) : Tail s := ⟨s.dropWhile isSpace, length_dropWhile_le ..⟩

/-- Whether an octet is a decimal digit. -/
def isDigit (b : UInt8) : Bool := 0x30 ≤ b && b ≤ 0x39

/-- The octets of a plain text. -/
def octets (text : String) : Octets := Utf8.encode text.toList

end HostedGit.Json
