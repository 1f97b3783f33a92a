/-
Percent-encoding is undone by decoding, whatever is escaped, as long as `%` is; and it leaves nothing but
safe characters, `%` and digits.
-/
import HostedGit.Proofs.Text.Utf8
import HostedGit.Text.Percent

namespace HostedGit

/-! ## Digits -/

namespace Digits

theorem value?_upper : ∀ {n : Nat}, n < 16 → value? (upper n) = some n := by decide

end Digits

namespace Percent

/-! ## Octets -/

theorem decodeBytes_escape (b : UInt8) (rest : List Char) : decodeBytes (escape b ++ rest) = b :: decodeBytes rest := by
  have hb := b.toNat_lt
  have value : (16 * (b.toNat / 16) + b.toNat % 16).toUInt8 = b := by
    rw [Nat.div_add_mod]
    exact UInt8.ofNat_toNat
  unfold escape
  simp only [List.cons_append, List.nil_append]
  rw [decodeBytes, Digits.value?_upper (by omega), Digits.value?_upper (by omega)]
  dsimp only
  rw [value]

theorem decodeBytes_escapes (bs : List UInt8) (rest : List Char) :
    decodeBytes (bs.flatMap escape ++ rest) = bs ++ decodeBytes rest := by
  induction bs with
  | nil => rfl
  | cons b bs ih =>
    rw [List.flatMap_cons, List.append_assoc, decodeBytes_escape, ih]
    rfl

/-- A character that is not `%` stands for its own octets. -/
theorem decodeBytes_cons {c : Char} (hc : c ≠ '%') (rest : List Char) :
    decodeBytes (c :: rest) = Utf8.encodeChar c ++ decodeBytes rest := by
  rw [decodeBytes]
  exact fun _ _ _ h _ => hc h

theorem decodeBytes_encode {safe : Char → Bool} (h : safe '%' = false) (cs : List Char) :
    decodeBytes (encode safe cs) = Utf8.encode cs := by
  induction cs with
  | nil => rfl
  | cons c cs ih =>
    unfold encode Utf8.encode at *
    rw [List.flatMap_cons, List.flatMap_cons, ← ih]
    split
    · rename_i hs
      refine decodeBytes_cons ?_ _
      rintro rfl
      rw [h] at hs
      cases hs
    · exact decodeBytes_escapes _ _

/-! ## Texts -/

theorem encode_append (safe : Char → Bool) (cs ds : List Char) :
    encode safe (cs ++ ds) = encode safe cs ++ encode safe ds := List.flatMap_append

/-- Decoding gives back what was encoded. -/
theorem decode_encode {safe : Char → Bool} (h : safe '%' = false) (cs : List Char) :
    decode (encode safe cs) = cs := by
  unfold decode
  rw [decodeBytes_encode h, Utf8.decodeLossy_encode]

theorem encode_injective {safe : Char → Bool} (h : safe '%' = false) {cs ds : List Char}
    (he : encode safe cs = encode safe ds) : cs = ds := by
  rw [← decode_encode h cs, he, decode_encode h]

theorem encodeChar_ne_nil (c : Char) : Utf8.encodeChar c ≠ [] := by
  unfold Utf8.encodeChar
  dsimp only
  split
  · exact List.cons_ne_nil _ _
  split
  · exact List.cons_ne_nil _ _
  split <;> exact List.cons_ne_nil _ _

/-- A text that is not empty stands for one that is not. -/
theorem decode_ne_nil {cs : List Char} (h : cs ≠ []) : decode cs ≠ [] := by
  refine Utf8.decodeLossy_ne_nil ?_
  unfold decodeBytes
  split
  · split <;> exact List.cons_ne_nil _ _
  · exact List.append_ne_nil_of_left_ne_nil (encodeChar_ne_nil _) _
  · exact absurd rfl h

theorem encode_eq_self {safe : Char → Bool} {cs : List Char} (h : ∀ c ∈ cs, safe c = true) : encode safe cs = cs := by
  induction cs with
  | nil => rfl
  | cons c cs ih =>
    unfold encode at ih ⊢
    rw [List.flatMap_cons, if_pos (h c (by simp)), ih fun d hd => h d (by simp [hd])]
    rfl

theorem decodeBytes_eq_encode {cs : List Char} (h : '%' ∉ cs) : decodeBytes cs = Utf8.encode cs := by
  induction cs with
  | nil => rfl
  | cons c cs ih =>
    simp only [List.mem_cons, not_or] at h
    rw [decodeBytes_cons (Ne.symm h.1), ih h.2]
    rfl

theorem decode_eq_self {cs : List Char} (h : '%' ∉ cs) : decode cs = cs := by
  unfold decode
  rw [decodeBytes_eq_encode h, Utf8.decodeLossy_encode]

theorem toNat_lt_of_isUnreserved {c : Char} (h : isUnreserved c = true) : c.toNat < 0x80 := by
  have h : ((decide (c.val ≥ 65 ∧ c.val ≤ 90) || c.val ≥ 97 && c.val ≤ 122) || (c.val ≥ 48 && c.val ≤ 57) ||
      ['-', '.', '_', '~'].contains c) = true := h
  simp only [Bool.or_eq_true, Bool.and_eq_true, decide_eq_true_eq, List.contains_eq_mem, List.mem_cons,
    List.not_mem_nil, or_false, UInt32.le_iff_toNat_le, ge_iff_le] at h
  show c.val.toNat < 0x80
  rcases h with ((⟨-, h⟩ | ⟨-, h⟩) | ⟨-, h⟩) | rfl | rfl | rfl | rfl
  · exact Nat.lt_of_le_of_lt h (by decide)
  · exact Nat.lt_of_le_of_lt h (by decide)
  · exact Nat.lt_of_le_of_lt h (by decide)
  all_goals decide

/-- Where a character comes that is part of no escaped octet, what stands before it is read by itself. -/
theorem decodeBytes_append {c : Char} (hp : c ≠ '%') (hc : Digits.value? c = none) (cs rest : List Char) :
    decodeBytes (cs ++ c :: rest) = decodeBytes cs ++ decodeBytes (c :: rest) := by
  fun_induction decodeBytes cs with
  | case1 a b rest' x y hx hy ih => simp [decodeBytes, hx, hy, ih]
  | case2 a b rest' hn ih =>
    simp only [List.cons_append] at ih ⊢
    rw [decodeBytes.eq_1, ih]
    split
    · exact absurd ‹_› fun h => hn _ _ ‹_› h
    · rfl
  | case3 d rest' hd ih =>
    by_cases hd' : d = '%'
    · -- the escape that starts here would need `c` as a digit
      subst hd'
      match rest' with
      | [] => cases rest <;> simp [decodeBytes, hc, Utf8.encodeChar]
      | [a] =>
        simp only [List.cons_append, List.nil_append] at ih ⊢
        rw [decodeBytes.eq_1, hc, ih]
        cases Digits.value? a <;> rfl
      | a :: b :: _ => exact absurd rfl (hd a b _ rfl)
    · rw [List.cons_append, decodeBytes_cons hd', ih, List.append_assoc]
  | case4 => rfl

/-- What is written: safe characters, `%` and digits. -/
theorem mem_encode {safe : Char → Bool} {cs : List Char} {c : Char} (h : c ∈ encode safe cs) :
    (safe c = true ∧ c ∈ cs) ∨ c = '%' ∨ ∃ n < 16, c = Digits.upper n := by
  obtain ⟨d, hd, hc⟩ := List.mem_flatMap.mp h
  split at hc
  · rename_i hs
    cases List.mem_singleton.mp hc
    exact .inl ⟨hs, hd⟩
  · obtain ⟨b, -, hb⟩ := List.mem_flatMap.mp hc
    have := b.toNat_lt
    unfold escape at hb
    simp only [List.mem_cons, List.not_mem_nil, or_false] at hb
    rcases hb with rfl | rfl | rfl
    · exact .inr (.inl rfl)
    · exact .inr (.inr ⟨_, by omega, rfl⟩)
    · exact .inr (.inr ⟨_, by omega, rfl⟩)

end Percent

end HostedGit
