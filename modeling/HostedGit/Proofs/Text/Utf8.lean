/-
Reading back what was written as UTF-8: the octets of a text are cut into exactly its characters.
-/
import HostedGit.Text.Utf8

namespace HostedGit.Utf8

/-! ## One character -/

/-- An octet with six more bits. -/
theorem tail_cons {more low high code : Nat} {b : UInt8} {rest : List UInt8} (hm : more ≠ 0)
    (hb : low ≤ b.toNat ∧ b.toNat ≤ high) :
    tail more low high code (b :: rest) = tail (more - 1) 0x80 0xBF (code * 0x40 + b.toNat % 0x40) rest := by
  rw [tail, if_neg hm, if_pos hb]

theorem tail_zero (low high code : Nat) (rest : List UInt8) : tail 0 low high code rest = (some code, rest) := by
  cases rest <;> rfl

theorem next_of_lead {b : UInt8} {l : Lead} (hb : 0x80 ≤ b.toNat) (hl : Lead.ofByte? b.toNat = some l)
    (rest : List UInt8) :
    next b rest = ((tail l.more l.low l.high l.bits rest).1.map Char.ofNat,
      (tail l.more l.low l.high l.bits rest).2) := by
  unfold next
  rw [if_neg (by omega), hl]

theorem toNat_toUInt8 {n : Nat} (h : n < 0x100) : n.toUInt8.toNat = n := by
  show n % 256 = n
  omega

/-- A first octet and the octets that follow it, read as the number that they were written for. -/
theorem pieces_of_lead {n b : Nat} {l : Lead} (hb : 0x80 ≤ b) (hb' : b < 0x100) (hl : Lead.ofByte? b = some l)
    {more rest : List UInt8} (ht : tail l.more l.low l.high l.bits (more ++ rest) = (some n, rest)) :
    pieces (b.toUInt8 :: more ++ rest) = some (Char.ofNat n) :: pieces rest := by
  rw [List.cons_append, pieces, next_of_lead (by rw [toNat_toUInt8 hb']; exact hb)
    (by rw [toNat_toUInt8 hb']; exact hl), ht]
  rfl

theorem pieces_two {n : Nat} (h : 0x80 ≤ n) (h' : n < 0x800) (rest : List UInt8) :
    pieces ([(0xC0 + n / 0x40).toUInt8, (0x80 + n % 0x40).toUInt8] ++ rest) =
      some (Char.ofNat n) :: pieces rest := by
  have lead : Lead.ofByte? (0xC0 + n / 0x40) = some ⟨n / 0x40, 1, 0x80, 0xBF⟩ := by
    unfold Lead.ofByte?
    rw [if_pos (by omega), Nat.add_sub_cancel_left]
  refine pieces_of_lead (by omega) (by omega) lead ?_
  show tail 1 0x80 0xBF (n / 0x40) ([(0x80 + n % 0x40).toUInt8] ++ rest) = _
  rw [List.singleton_append, tail_cons (by decide) (by rw [toNat_toUInt8 (by omega)]; omega),
    toNat_toUInt8 (by omega), tail_zero]
  congr 2
  omega

/-- The bounds on the second octet of three hold for every number that is no surrogate. -/
theorem lead_three {n : Nat} (h : 0x800 ≤ n) (h' : n < 0x10000) (hs : n < 0xD800 ∨ 0xDFFF < n) :
    ∃ l, Lead.ofByte? (0xE0 + n / 0x1000) = some l ∧ l.bits = n / 0x1000 ∧ l.more = 2 ∧
      l.low ≤ 0x80 + n / 0x40 % 0x40 ∧ 0x80 + n / 0x40 % 0x40 ≤ l.high := by
  unfold Lead.ofByte?
  rw [if_neg (by omega)]
  by_cases h0 : n / 0x1000 = 0
  · refine ⟨⟨0, 2, 0xA0, 0xBF⟩, by rw [if_pos (by omega)], ?_, rfl, ?_, ?_⟩ <;> dsimp only <;> omega
  rw [if_neg (by omega)]
  by_cases hd : n / 0x1000 = 13
  · refine ⟨⟨0xD, 2, 0x80, 0x9F⟩, by rw [if_pos (by omega)], ?_, rfl, ?_, ?_⟩ <;> dsimp only <;> omega
  rw [if_neg (by omega), if_pos (by omega)]
  refine ⟨_, rfl, ?_, rfl, ?_, ?_⟩ <;> dsimp only <;> omega

theorem pieces_three {n : Nat} (h : 0x800 ≤ n) (h' : n < 0x10000) (hs : n < 0xD800 ∨ 0xDFFF < n)
    (rest : List UInt8) :
    pieces ([(0xE0 + n / 0x1000).toUInt8, (0x80 + n / 0x40 % 0x40).toUInt8, (0x80 + n % 0x40).toUInt8] ++ rest) =
      some (Char.ofNat n) :: pieces rest := by
  obtain ⟨l, lead, hbits, hmore, hlow, hhigh⟩ := lead_three h h' hs
  refine pieces_of_lead (by omega) (by omega) lead ?_
  rw [List.cons_append, List.singleton_append, hmore, hbits,
    tail_cons (by decide) (by rw [toNat_toUInt8 (by omega)]; omega), toNat_toUInt8 (by omega),
    tail_cons (by decide) (by rw [toNat_toUInt8 (by omega)]; omega), toNat_toUInt8 (by omega), tail_zero]
  congr 2
  omega

/-- The bounds on the second octet of four hold for every number that is a code point. -/
theorem lead_four {n : Nat} (h : 0x10000 ≤ n) (h' : n < 0x110000) :
    ∃ l, Lead.ofByte? (0xF0 + n / 0x40000) = some l ∧ l.bits = n / 0x40000 ∧ l.more = 3 ∧
      l.low ≤ 0x80 + n / 0x1000 % 0x40 ∧ 0x80 + n / 0x1000 % 0x40 ≤ l.high := by
  unfold Lead.ofByte?
  rw [if_neg (by omega), if_neg (by omega), if_neg (by omega), if_neg (by omega)]
  by_cases h0 : n / 0x40000 = 0
  · refine ⟨⟨0, 3, 0x90, 0xBF⟩, by rw [if_pos (by omega)], ?_, rfl, ?_, ?_⟩ <;> dsimp only <;> omega
  rw [if_neg (by omega)]
  by_cases h4 : n / 0x40000 = 4
  · refine ⟨⟨4, 3, 0x80, 0x8F⟩, by rw [if_neg (by omega), if_pos (by omega)], ?_, rfl, ?_, ?_⟩ <;>
      dsimp only <;> omega
  rw [if_pos (by omega)]
  refine ⟨_, rfl, ?_, rfl, ?_, ?_⟩ <;> dsimp only <;> omega

theorem pieces_four {n : Nat} (h : 0x10000 ≤ n) (h' : n < 0x110000) (rest : List UInt8) :
    pieces ([(0xF0 + n / 0x40000).toUInt8, (0x80 + n / 0x1000 % 0x40).toUInt8,
        (0x80 + n / 0x40 % 0x40).toUInt8, (0x80 + n % 0x40).toUInt8] ++ rest) =
      some (Char.ofNat n) :: pieces rest := by
  obtain ⟨l, lead, hbits, hmore, hlow, hhigh⟩ := lead_four h h'
  refine pieces_of_lead (by omega) (by omega) lead ?_
  rw [List.cons_append, List.cons_append, List.singleton_append, hmore, hbits,
    tail_cons (by decide) (by rw [toNat_toUInt8 (by omega)]; omega), toNat_toUInt8 (by omega),
    tail_cons (by decide) (by rw [toNat_toUInt8 (by omega)]; omega), toNat_toUInt8 (by omega),
    tail_cons (by decide) (by rw [toNat_toUInt8 (by omega)]; omega), toNat_toUInt8 (by omega), tail_zero]
  congr 2
  omega

/-- The first piece of a text's octets is its first character. -/
theorem pieces_encodeChar (c : Char) (rest : List UInt8) :
    pieces (encodeChar c ++ rest) = some c :: pieces rest := by
  -- no character is a surrogate, or above the last code point
  have hc : c.toNat < 0xD800 ∨ 0xDFFF < c.toNat ∧ c.toNat < 0x110000 := c.valid
  suffices h : pieces (encodeChar c ++ rest) = some (Char.ofNat c.toNat) :: pieces rest by
    rwa [Char.ofNat_toNat] at h
  unfold encodeChar
  dsimp only
  split
  · rename_i h
    rw [List.singleton_append, pieces]
    unfold next
    rw [toNat_toUInt8 (by omega), if_pos h]
  split
  · exact pieces_two (by omega) (by omega) rest
  split
  · exact pieces_three (by omega) (by omega) (by omega) rest
  · exact pieces_four (by omega) (by omega) rest

/-- What holds of each of the first code points holds of each ASCII character. -/
theorem of_ascii {P : Char → Prop} (h : ∀ n < 0x80, P (Char.ofNat n)) {c : Char} (hc : c.toNat < 0x80) : P c := by
  have := h c.toNat hc
  rwa [Char.ofNat_toNat] at this

/-! ## Texts -/

theorem pieces_encode (cs : List Char) : pieces (encode cs) = cs.map some := by
  induction cs with
  | nil => rw [encode, List.flatMap_nil, pieces, List.map_nil]
  | cons c cs ih =>
    rw [encode, List.flatMap_cons, pieces_encodeChar]
    exact congrArg (some c :: ·) ih

/-- Reading gives back what was written. -/
theorem decodeLossy_encode (cs : List Char) : decodeLossy (encode cs) = cs := by
  unfold decodeLossy
  rw [pieces_encode, List.map_map]
  exact List.map_id cs

theorem decode?_encode (cs : List Char) : decode? (encode cs) = some cs := by
  unfold decode?
  rw [pieces_encode]
  induction cs with
  | nil => rfl
  | cons c cs ih =>
    rw [List.map_cons, List.mapM_cons, ih]
    rfl

/-! ### ASCII after other octets -/

variable {b : UInt8}

/-- An ASCII octet ends the character before it, whether that is whole or not. -/
theorem tail_append (hb : b.toNat < 0x80) {low : Nat} (hl : 0x80 ≤ low) (more high code : Nat) (bs rest : List UInt8) :
    tail more low high code (bs ++ b :: rest) =
      ((tail more low high code bs).1, (tail more low high code bs).2 ++ b :: rest) := by
  induction bs generalizing more low high code with
  | nil =>
    have other : ¬(low ≤ b.toNat ∧ b.toNat ≤ high) := by omega
    by_cases hm : more = 0 <;> simp [tail, hm, other]
  | cons d bs ih =>
    rw [List.cons_append, tail, tail]
    split
    · rfl
    split
    · exact ih (Nat.le_refl _) _ _ _
    · rfl

theorem low_of_ofByte? {n : Nat} {l : Lead} (h : Lead.ofByte? n = some l) : 0x80 ≤ l.low := by
  unfold Lead.ofByte? at h
  repeat' split at h
  all_goals simp only [Option.some.injEq, reduceCtorEq] at h
  all_goals simp [← h]

theorem next_append (hb : b.toNat < 0x80) (d : UInt8) (bs rest : List UInt8) :
    next d (bs ++ b :: rest) = ((next d bs).1, (next d bs).2 ++ b :: rest) := by
  unfold next
  split
  · rfl
  split
  · rfl
  · rename_i l hl
    dsimp only
    rw [tail_append hb (low_of_ofByte? hl)]

theorem pieces_append (hb : b.toNat < 0x80) (bs rest : List UInt8) :
    pieces (bs ++ b :: rest) = pieces bs ++ pieces (b :: rest) := by
  induction bs using pieces.induct with
  | case1 => simp [pieces]
  | case2 d bs ih =>
    rw [List.cons_append, pieces, next_append hb, ih, pieces.eq_2 d bs]
    rfl

/-- Where an ASCII character comes after octets, these are read by themselves. -/
theorem decode?_append {c : Char} (hc : c.toNat < 0x80) (bs : List UInt8) (cs : List Char) :
    decode? (bs ++ encode (c :: cs)) = (decode? bs).map (· ++ c :: cs) := by
  have octet : encode (c :: cs) = c.toNat.toUInt8 :: encode cs := by simp [encode, encodeChar, hc]
  have rest := decode?_encode (c :: cs)
  unfold decode? at rest ⊢
  rw [octet] at rest ⊢
  rw [pieces_append (by rw [toNat_toUInt8 (by omega)]; exact hc), List.mapM_append, rest]
  cases (pieces bs).mapM id <;> rfl

theorem length_pieces_le (bs : List UInt8) : (pieces bs).length ≤ bs.length := by
  induction bs using pieces.induct with
  | case1 => simp [pieces]
  | case2 b rest ih =>
    have := length_next_le b rest
    rw [pieces, List.length_cons, List.length_cons]
    omega

/-- Octets stand for a text that is not empty. -/
theorem decodeLossy_ne_nil {bs : List UInt8} (h : bs ≠ []) : decodeLossy bs ≠ [] := by
  cases bs with
  | nil => exact absurd rfl h
  | cons b rest =>
    unfold decodeLossy
    rw [pieces]
    exact List.cons_ne_nil _ _

end HostedGit.Utf8
