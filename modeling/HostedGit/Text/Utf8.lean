/-
UTF-8 over lists of octets. `encode` gives the octets of a text. Reading goes through `pieces`, which
cuts octets into characters and malformed pieces, a malformed piece being as long as it could still
have been the start of a character; `decode?` asks for no malformed piece at all, `decodeLossy` writes
U+FFFD for each.
-/
namespace HostedGit.Utf8

/-- The octets of one character. -/
def encodeChar (c : Char) : List UInt8 :=
  let n := c.toNat
  if n < 0x80 then [n.toUInt8]
  else if n < 0x800 then [(0xC0 + n / 0x40).toUInt8, (0x80 + n % 0x40).toUInt8]
  else if n < 0x10000 then
    [(0xE0 + n / 0x1000).toUInt8, (0x80 + n / 0x40 % 0x40).toUInt8, (0x80 + n % 0x40).toUInt8]
  else
    [(0xF0 + n / 0x40000).toUInt8, (0x80 + n / 0x1000 % 0x40).toUInt8,
      (0x80 + n / 0x40 % 0x40).toUInt8, (0x80 + n % 0x40).toUInt8]

/-- The octets of a text. -/
def encode (cs : List Char) : List UInt8 := cs.flatMap encodeChar

/-- What the first octet of a character of two octets or more announces. -/
structure Lead where
  /-- The bits of the code point that the first octet holds. -/
  bits : Nat
  /-- How many octets follow. -/
  more : Nat
  /-- The least octet that may come next. -/
  low : Nat
  /-- The greatest octet that may come next. -/
  high : Nat

/-- Reads a first octet. The bounds on the second one keep out overlong forms, surrogates and numbers
above the last code point. -/
def Lead.ofByte? (b : Nat) : Option Lead :=
  if 0xC2 ≤ b ∧ b ≤ 0xDF then some ⟨b - 0xC0, 1, 0x80, 0xBF⟩
  else if b = 0xE0 then some ⟨0, 2, 0xA0, 0xBF⟩
  else if b = 0xED then some ⟨0xD, 2, 0x80, 0x9F⟩
  else if 0xE1 ≤ b ∧ b ≤ 0xEF then some ⟨b - 0xE0, 2, 0x80, 0xBF⟩
  else if b = 0xF0 then some ⟨0, 3, 0x90, 0xBF⟩
  else if 0xF1 ≤ b ∧ b ≤ 0xF3 then some ⟨b - 0xF0, 3, 0x80, 0xBF⟩
  else if b = 0xF4 then some ⟨4, 3, 0x80, 0x8F⟩
  else none

/-- Reads the `more` octets that follow a first one, the next of them between `low` and `high`. Answers
the code point, or none where an octet does not fit, and what is left. -/
def tail (more low high code : Nat) : List UInt8 → Option Nat × List UInt8
  | [] => (if more = 0 then some code else none, [])
  | b :: rest =>
    if more = 0 then (some code, b :: rest)
    else if low ≤ b.toNat ∧ b.toNat ≤ high then
      tail (more - 1) 0x80 0xBF (code * 0x40 + b.toNat % 0x40) rest
    else (none, b :: rest)

theorem length_tail_le (more low high code : Nat) (bs : List UInt8) :
    (tail more low high code bs).2.length ≤ bs.length := by
  induction bs generalizing more low high code with
  | nil => simp [tail]
  | cons b rest ih =>
    unfold tail
    split
    · simp
    · split
      · exact Nat.le_succ_of_le (ih _ _ _ _)
      · simp

/-- Cuts off the first piece of `b :: rest`: a character, or none for a malformed piece. -/
def next (b : UInt8) (rest : List UInt8) : Option Char × List UInt8 :=
  if b.toNat < 0x80 then (some (Char.ofNat b.toNat), rest)
  else match Lead.ofByte? b.toNat with
    | none => (none, rest)
    | some l =>
      let r := tail l.more l.low l.high l.bits rest
      (r.1.map Char.ofNat, r.2)

theorem length_next_le (b : UInt8) (rest : List UInt8) : (next b rest).2.length ≤ rest.length := by
  unfold next
  split
  · simp
  · split
    · simp
    · exact length_tail_le ..

/-- Octets cut into characters and malformed pieces. -/
def pieces : List UInt8 → List (Option Char)
  | [] => []
  | b :: rest => (next b rest).1 :: pieces (next b rest).2
termination_by bs => bs.length
decreasing_by
  have := length_next_le b rest
  simp only [List.length_cons]; omega

/-- The text of octets that are UTF-8 throughout. -/
def decode? (bs : List UInt8) : Option (List Char) := (pieces bs).mapM id

/-- The text of any octets, each malformed piece read as U+FFFD. -/
def decodeLossy (bs : List UInt8) : List Char := (pieces bs).map (·.getD '\uFFFD')

/-- How many octets stand before the first malformed piece. -/
def validLength (bs : List UInt8) : Nat :=
  (((pieces bs).takeWhile Option.isSome).filterMap id).flatMap encodeChar |>.length

end HostedGit.Utf8
