/-
Passing over values of any shape and depth. The open lists and objects are kept as a stack, so depth
costs no more than length.
-/
import HostedGit.Json.Literal
import HostedGit.Json.Number

namespace HostedGit.Json

/-- A list or an object that has been opened. -/
inductive Frame where
  | list
  | object
  deriving DecidableEq, Repr

/-- What is due next. -/
inductive Due where
  /-- A value. -/
  | value
  /-- A key, its colon, and a value. -/
  | key
  /-- What may follow a value. -/
  | separator
  deriving DecidableEq, Repr

/-- Passes over a number, a string or a literal name. -/
def skipScalar (s : Octets) : Except Failure (Rest s) :=
  match s with
  | [] => failNext .endInValue []
  | b :: rest =>
    if b = 0x22 then
      match skipText rest with
      | .error f => .error f
      | .ok ⟨r, h⟩ => .ok ⟨r, lt_cons_of_lt h⟩
    else if b = 0x2D then
      match skipNumber rest with
      | .error f => .error f
      | .ok ⟨r, h⟩ => .ok ⟨r, lt_cons_of_lt h⟩
    else if isDigit b then skipNumber (b :: rest)
    else
      let name? := if b = 0x6E then some "ull" else if b = 0x74 then some "rue"
        else if b = 0x66 then some "alse" else none
      match name? with
      | none => failNext .expectedValue (b :: rest)
      | some name =>
        match readName (octets name) rest with
        | .error f => .error f
        | .ok ⟨r, h⟩ => .ok ⟨r, lt_cons_of_le h⟩

/-- Passes over the colon after a key. -/
def skipColon (s : Octets) : Except Failure (Rest s) :=
  match skipSpace s with
  | ⟨[], _⟩ => failNext .endInObject []
  | ⟨b :: rest, h⟩ =>
    if b = 0x3A then .ok ⟨rest, h⟩ else failNext .expectedColon (b :: rest)

/-- Passes over a key and its colon. -/
def skipKey (s : Octets) : Except Failure (Rest s) :=
  match skipSpace s with
  | ⟨[], _⟩ => failNext .endInObject []
  | ⟨b :: rest, h⟩ =>
    if b ≠ 0x22 then failNext .keyNotString (b :: rest)
    else
      match skipText rest with
      | .error f => .error f
      | .ok ⟨r, h'⟩ =>
        match skipColon r with
        | .error f => .error f
        | .ok ⟨r', h''⟩ => .ok ⟨r', Nat.lt_trans (Nat.lt_trans h'' h') h⟩

/-- Goes on until everything that was opened is closed. -/
def skipDue (due : Due) (frames : List Frame) (s : Octets) : Except Failure Octets :=
  match due with
  | .key =>
    match skipKey s with
    | .error f => .error f
    | .ok ⟨r, _⟩ => skipDue .value frames r
  | .value =>
    match skipSpace s with
    | ⟨[], _⟩ => failNext .endInValue []
    | ⟨b :: rest, _⟩ =>
      if b = 0x5B then
        match skipSpace rest with
        | ⟨[], _⟩ => failNext .endInList []
        | ⟨c :: r, _⟩ =>
          if c = 0x5D then skipDue .separator frames r else skipDue .value (.list :: frames) (c :: r)
      else if b = 0x7B then
        match skipSpace rest with
        | ⟨[], _⟩ => failNext .endInObject []
        | ⟨c :: r, _⟩ =>
          if c = 0x7D then skipDue .separator frames r else skipDue .key (.object :: frames) (c :: r)
      else
        match skipScalar (b :: rest) with
        | .error f => .error f
        | .ok ⟨r, _⟩ => skipDue .separator frames r
  | .separator =>
    match frames with
    | [] => .ok s
    | .list :: frames =>
      match skipSpace s with
      | ⟨[], _⟩ => failNext .endInList []
      | ⟨b :: rest, _⟩ =>
        if b = 0x2C then skipDue .value (.list :: frames) rest
        else if b = 0x5D then skipDue .separator frames rest
        else failNext .expectedListEnd (b :: rest)
    | .object :: frames =>
      match skipSpace s with
      | ⟨[], _⟩ => failNext .endInObject []
      | ⟨b :: rest, _⟩ =>
        if b = 0x2C then skipDue .key (.object :: frames) rest
        else if b = 0x7D then skipDue .separator frames rest
        else failNext .expectedObjectEnd (b :: rest)
termination_by s.length
decreasing_by
  · assumption
  all_goals simp only [List.length_cons] at *; omega

/-- Something is read, unless nothing is left to be closed. -/
theorem length_skipDue {due : Due} {frames : List Frame} {s r : Octets}
    (h : skipDue due frames s = .ok r) : r.length + (if due = .separator then 0 else 1) ≤ s.length := by
  fun_induction skipDue due frames s with
  | case12 => cases h; exact Nat.le_refl _
  | _ =>
    repeat clear ‹skipSpace _ = _›
    try clear ‹skipScalar _ = _›
    simp only [List.length_cons, failNext, reduceCtorEq, if_false, if_true] at *
    try have := ‹_ → _› h
    try omega

/-- Passes over a value. -/
def skipValue (s : Octets) : Except Failure (Rest s) :=
  match h : skipDue .value [] s with
  | .error f => .error f
  | .ok r => .ok ⟨r, length_skipDue h⟩

end HostedGit.Json
