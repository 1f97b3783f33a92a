/-
JSON numbers. `skipNumber` passes over one; `readNumber` gives its wording for a message, for which a
number that is no 64-bit integer is taken as a binary floating-point number.
-/
import HostedGit.Decimal.Shortest
import HostedGit.Json.Basic

namespace HostedGit.Json

/-- What is left after digits. -/
def skipDigits (s : Octets) : Tail s := ⟨s.dropWhile isDigit, length_dropWhile_le ..⟩

/-! ## Passing over -/

/-- Passes over an exponent, after its letter. -/
def skipExponent (s : Octets) : Except Failure (Tail s) :=
  let unsigned : Tail s := match s with
    | 0x2B :: rest => ⟨rest, le_cons_self⟩
    | 0x2D :: rest => ⟨rest, le_cons_self⟩
    | s => .whole s
  match unsigned with
  | ⟨[], _⟩ => failAt .invalidNumber []
  | ⟨b :: rest, h⟩ =>
    if isDigit b then
      let ⟨r, h'⟩ := skipDigits rest
      .ok ⟨r, Nat.le_trans h' (Nat.le_of_succ_le h)⟩
    else failAt .invalidNumber rest

/-- Passes over places, after the point. -/
def skipPlaces (s : Octets) : Except Failure (Tail s) :=
  match s with
  | [] => failNext .invalidNumber []
  | b :: rest =>
    if !isDigit b then failNext .invalidNumber (b :: rest)
    else
      match skipDigits rest with
      | ⟨e :: r, h⟩ =>
        if e = 0x65 ∨ e = 0x45 then
          match skipExponent r with
          | .error f => .error f
          | .ok ⟨r', h'⟩ => .ok ⟨r', le_cons_of_le (Nat.le_trans h' (Nat.le_of_succ_le h))⟩
        else .ok ⟨e :: r, le_cons_of_le h⟩
      | ⟨[], _⟩ => .ok ⟨[], Nat.zero_le _⟩

/-- Passes over the places and the exponent of a number, if it has any. -/
def skipFraction (s : Octets) : Except Failure (Tail s) :=
  match s with
  | [] => .ok ⟨[], Nat.zero_le _⟩
  | b :: rest =>
    let read := if b = 0x2E then some (skipPlaces rest)
      else if b = 0x65 ∨ b = 0x45 then some (skipExponent rest) else none
    match read with
    | none => .ok (.whole (b :: rest))
    | some (.error f) => .error f
    | some (.ok ⟨r, h⟩) => .ok ⟨r, le_cons_of_le h⟩

/-- Passes over a number without its sign. -/
def skipNumber (s : Octets) : Except Failure (Rest s) :=
  match s with
  | [] => failAt .invalidNumber []
  | b :: rest =>
    if b = 0x30 ∧ (rest.head?.map isDigit).getD false then failNext .invalidNumber rest
    else if isDigit b then
      let digits : Tail rest := if b = 0x30 then .whole rest else skipDigits rest
      match skipFraction digits.1 with
      | .error f => .error f
      | .ok ⟨r, h⟩ => .ok ⟨r, lt_cons_of_le (Nat.le_trans h digits.2)⟩
    else failAt .invalidNumber rest

/-! ## Values -/

/-- Adds digits to a number while it stays within 64 bits, and counts those added and those left over. -/
def absorb (n : Nat) : Octets → Nat × Nat × Nat
  | [] => (n, 0, 0)
  | d :: ds =>
    let n' := n * 10 + (d.toNat - 48)
    if n' < UInt64.size then
      let r := absorb n' ds
      (r.1, r.2.1 + 1, r.2.2)
    else (n, 0, ds.length + 1)

/-- `x / 10 ^ n`, in steps that the powers of ten allow. -/
def shrink (x : Binary64) (n : Nat) : Binary64 :=
  if x.mantissa = 0 then x
  else if 308 < n then
    shrink (((Binary64.tenPow? 308).bind x.div?).getD .zero) (n - 308)
  else ((Binary64.tenPow? n).bind x.div?).getD .zero
termination_by n
decreasing_by omega

/-- The number nearest to `significand * 10 ^ exponent`, reached by one or a few roundings; none where
it is too large. -/
def toBinary? (significand : Nat) (exponent : Int) : Option Binary64 := do
  let x ← Binary64.ofFraction? significand 1
  if exponent < 0 then some (shrink x exponent.natAbs)
  else if 308 < exponent then if significand = 0 then some .zero else none
  else x.mul? (← Binary64.tenPow? exponent.toNat)

/-- How a floating-point number is worded. -/
def floatText (negative : Bool) (x : Binary64) : List Char :=
  "floating point \x60".toList ++ (if negative then ['-'] else []) ++ x.text ++ ['\x60']

/-- How an integer is worded, or a floating-point number where 64 bits do not hold it. -/
def integerText (negative : Bool) (n : Nat) : List Char :=
  if negative ∧ (n = 0 ∨ UInt64.size / 2 < n) then
    floatText true ((Binary64.ofFraction? n 1).getD .zero)
  else
    "integer \x60".toList ++ (if negative then ['-'] else []) ++ Nat.toDigits 10 n ++ ['\x60']

/-- Reads an exponent, after its letter: the power of ten that `start` becomes with it, and none for one
beyond 32 bits that leaves zero. -/
def readExponent (significand : Nat) (start : Int) (s : Octets) :
    Except Failure (Option Int × Octets) :=
  let (negative, s) := match s with
    | 0x2B :: rest => (false, rest)
    | 0x2D :: rest => (true, rest)
    | s => (false, s)
  match s with
  | [] => failAt .endInValue []
  | b :: rest =>
    if !isDigit b then failAt .invalidNumber rest
    else
      let rec go (n : Nat) : Octets → Except Failure (Option Int × Octets)
        | [] => .ok (some (if negative then start - n else start + n), [])
        | d :: ds =>
          if !isDigit d then .ok (some (if negative then start - n else start + n), d :: ds)
          else
            let n' := n * 10 + (d.toNat - 48)
            if n' < UInt32.size / 2 then go n' ds
            else if significand ≠ 0 ∧ !negative then failAt .numberTooLarge ds
            else .ok (none, ds.dropWhile isDigit)
      go (b.toNat - 48) rest

/-- Words the number `significand * 10 ^ exponent`, of which an exponent may still follow. -/
def finish (negative : Bool) (significand : Nat) (exponent : Int) (s : Octets) :
    Except Failure (List Char × Octets) := do
  let (exponent, s) ← match s with
    | b :: rest =>
      if b = 0x65 ∨ b = 0x45 then readExponent significand exponent rest
      else pure (some exponent, s)
    | [] => pure (some exponent, s)
  match exponent with
  | none => return (floatText negative .zero, s)
  | some e =>
    match toBinary? significand e with
    | some x => return (floatText negative x, s)
    | none => failAt .numberTooLarge s

/-- Words the number that starts with `significand * 10 ^ exponent` and goes on after a point. -/
def finishPlaces (negative : Bool) (significand : Nat) (exponent : Nat) (s : Octets) :
    Except Failure (List Char × Octets) :=
  let (n, count, excess) := absorb significand (s.takeWhile isDigit)
  let rest := s.dropWhile isDigit
  if count = 0 ∧ excess = 0 then
    if rest.isEmpty then failNext .endInValue rest else failNext .invalidNumber rest
  else finish negative n (exponent - count) rest

/-- Words a number, after its sign, and answers what is left after it. -/
def describeNumber (negative : Bool) (s : Octets) : Except Failure (List Char × Octets) :=
  match s with
  | [] => failAt .endInValue []
  | b :: rest =>
    if !isDigit b then failAt .invalidNumber rest
    else if b = 0x30 ∧ (rest.head?.map isDigit).getD false then failNext .invalidNumber rest
    else
      let (n, _, excess) := absorb 0 (s.takeWhile isDigit)
      match s.dropWhile isDigit with
      | [] => if excess = 0 then .ok (integerText negative n, []) else finish negative n excess []
      | c :: r =>
        if c = 0x2E then finishPlaces negative n excess r
        else if excess = 0 ∧ c ≠ 0x65 ∧ c ≠ 0x45 then .ok (integerText negative n, c :: r)
        else finish negative n excess (c :: r)

end HostedGit.Json
