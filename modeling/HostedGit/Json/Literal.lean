/-
The octets of JSON strings. `readText` gives the text of a string, `skipText` passes over one: it checks
the escapes, but neither that surrogates come in pairs nor that the octets are UTF-8.
-/
import HostedGit.Json.Basic
import HostedGit.Text.Digits

namespace HostedGit.Json

/-- Reads the four digits of a `\u` escape. -/
def readHex (s : Octets) : Except Failure (Nat × Rest s) :=
  match s with
  | a :: b :: c :: d :: rest =>
    match Digits.number? 16 ([a, b, c, d].map fun x => Char.ofNat x.toNat) with
    | some n => .ok (n, ⟨rest, Nat.le_add_right (rest.length + 1) 3⟩)
    | none => failAt .invalidEscape rest
  | _ => failAt .endInString []

/-- The octet that a one-letter escape stands for. -/
def shortEscape? (b : UInt8) : Option UInt8 :=
  if b = 0x22 ∨ b = 0x5C ∨ b = 0x2F then some b
  else if b = 0x62 then some 0x08
  else if b = 0x66 then some 0x0C
  else if b = 0x6E then some 0x0A
  else if b = 0x72 then some 0x0D
  else if b = 0x74 then some 0x09
  else none

/-- Whether a number is the first half of a surrogate pair. -/
def isHigh (n : Nat) : Bool := 0xD800 ≤ n && n ≤ 0xDBFF

/-- Whether a number is the second half of a surrogate pair. -/
def isLow (n : Nat) : Bool := 0xDC00 ≤ n && n ≤ 0xDFFF

/-- Reads a character after `\u`. Beyond the first plane it takes two escapes. -/
def readUnicode (s : Octets) : Except Failure (Char × Rest s) :=
  match readHex s with
  | .error f => .error f
  | .ok (n, ⟨r, h⟩) =>
    if isLow n then failAt .unpairedLow r
    else if !isHigh n then .ok (Char.ofNat n, ⟨r, h⟩)
    else
      match r, h with
      | [], _ => failAt .endInString []
      | 0x5C :: [], _ => failAt .endInString []
      | 0x5C :: 0x75 :: rest, h =>
        match readHex rest with
        | .error f => .error f
        | .ok (m, ⟨r, h'⟩) =>
          if isLow m then
            .ok (Char.ofNat (0x10000 + (n - 0xD800) * 0x400 + (m - 0xDC00)),
              ⟨r, Nat.lt_trans h' (Nat.lt_of_succ_lt (Nat.lt_of_succ_lt h))⟩)
          else failAt .unpairedLow r
      | 0x5C :: _ :: rest, _ => failAt .unpairedHigh rest
      | _ :: rest, _ => failAt .unpairedHigh rest

/-- Reads what an escape stands for, after its backslash. -/
def readEscape (s : Octets) : Except Failure (Octets × Rest s) :=
  match s with
  | [] => failAt .endInString []
  | b :: rest =>
    if b = 0x75 then
      match readUnicode rest with
      | .error f => .error f
      | .ok (c, ⟨r, h⟩) => .ok (Utf8.encodeChar c, ⟨r, lt_cons_of_lt h⟩)
    else
      match shortEscape? b with
      | some x => .ok ([x], ⟨rest, lt_cons_self⟩)
      | none => failAt .invalidEscape rest

/-- Reads the octets of a string up to its closing quote, in reverse onto `done`. -/
def readOctets (done : Octets) (s : Octets) : Except Failure (Octets × Rest s) :=
  match s with
  | [] => failAt .endInString []
  | b :: rest =>
    if b = 0x22 then .ok (done.reverse, ⟨rest, lt_cons_self⟩)
    else if b = 0x5C then
      match readEscape rest with
      | .error f => .error f
      | .ok (x, ⟨r, h⟩) =>
        match readOctets (x.reverse ++ done) r with
        | .error f => .error f
        | .ok (all, ⟨r', h'⟩) => .ok (all, ⟨r', lt_cons_of_lt (Nat.lt_trans h' h)⟩)
    else if b < 0x20 then failAt .controlCharacter rest
    else
      match readOctets (b :: done) rest with
      | .error f => .error f
      | .ok (all, ⟨r, h⟩) => .ok (all, ⟨r, lt_cons_of_lt h⟩)
termination_by s.length

/-- Reads the text of a string, after its opening quote. Octets that are not UTF-8 are placed counting
back from the closing quote. -/
def readText (s : Octets) : Except Failure (List Char × Rest s) :=
  match readOctets [] s with
  | .error f => .error f
  | .ok (all, r) =>
    match Utf8.decode? all with
    | some text => .ok (text, r)
    | none => .error ⟨.invalidUtf8, r.1.length + (all.length - Utf8.validLength all)⟩

/-- Passes over an escape, after its backslash. -/
def skipEscape (s : Octets) : Except Failure (Rest s) :=
  match s with
  | [] => failAt .endInString []
  | b :: rest =>
    if b = 0x75 then
      match readHex rest with
      | .error f => .error f
      | .ok (_, ⟨r, h⟩) => .ok ⟨r, lt_cons_of_lt h⟩
    else if (shortEscape? b).isSome then .ok ⟨rest, lt_cons_self⟩
    else failAt .invalidEscape rest

/-- Passes over a string, after its opening quote. -/
def skipText (s : Octets) : Except Failure (Rest s) :=
  match s with
  | [] => failAt .endInString []
  | b :: rest =>
    if b = 0x22 then .ok ⟨rest, lt_cons_self⟩
    else if b = 0x5C then
      match skipEscape rest with
      | .error f => .error f
      | .ok ⟨r, h⟩ =>
        match skipText r with
        | .error f => .error f
        | .ok ⟨r', h'⟩ => .ok ⟨r', lt_cons_of_lt (Nat.lt_trans h' h)⟩
    else if b < 0x20 then failAt .controlCharacter (b :: rest)
    else
      match skipText rest with
      | .error f => .error f
      | .ok ⟨r, h⟩ => .ok ⟨r, lt_cons_of_lt h⟩
termination_by s.length

/-- Reads the letters of a literal name. -/
def readName (name : Octets) (s : Octets) : Except Failure (Tail s) :=
  match name, s with
  | [], s => .ok (.whole s)
  | _ :: _, [] => failAt .endInValue []
  | x :: name, b :: rest =>
    if b = x then
      match readName name rest with
      | .error f => .error f
      | .ok ⟨r, h⟩ => .ok ⟨r, le_cons_of_le h⟩
    else failAt .expectedLiteral rest

end HostedGit.Json
