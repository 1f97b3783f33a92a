/-
Strings of JSON, however they are written: the reader of strings gives the text that is spelled, whichever
escapes it is spelled with, and what passes over strings passes over every one.
-/
import HostedGit.Json.Literal
import HostedGit.Proofs.Json.Grammar
import HostedGit.Proofs.Text.Utf8
import Mathlib.Data.Nat.Init

namespace HostedGit.Json

variable {α : Type} {s t r : Octets}

/-! ## How readers come out -/

/-- A reader answers `a` and leaves `r`. -/
def Gives (x : Except Failure (α × Rest s)) (a : α) (r : Octets) : Prop := ∃ h, x = .ok (a, ⟨r, h⟩)

/-- What passes over something leaves `r`. -/
def Leaves {p : Octets → Prop} (x : Except Failure { r // p r }) (r : Octets) : Prop := ∃ h, x = .ok ⟨r, h⟩

/-! ## Escapes -/

theorem value?_of_isHexDigit {b : UInt8} {n : Nat} (h : IsHexDigit b n) :
    n < 16 ∧ Digits.value? (Char.ofNat b.toNat) = some n := by
  have decimal : ∀ n < 10, Digits.value? (Char.ofNat (0x30 + n)) = some n := by decide
  have letter : ∀ n < 16, 10 ≤ n → Digits.value? (Char.ofNat (0x57 + n)) = some n ∧
      Digits.value? (Char.ofNat (0x37 + n)) = some n := by decide
  rcases h with ⟨hn, hb⟩ | ⟨hn, hn', hb | hb⟩ <;> rw [hb]
  · exact ⟨by omega, decimal n hn⟩
  · exact ⟨hn', (letter n hn' hn).1⟩
  · exact ⟨hn', (letter n hn' hn).2⟩

theorem readHex_gives {n : Nat} (h : Hex n s r) : Gives (readHex s) n r := by
  cases h with
  | @digits a b c d i j k l r ha hb hc hd =>
    obtain ⟨hi, ha⟩ := value?_of_isHexDigit ha
    obtain ⟨hj, hb⟩ := value?_of_isHexDigit hb
    obtain ⟨hk, hc⟩ := value?_of_isHexDigit hc
    obtain ⟨hl, hd⟩ := value?_of_isHexDigit hd
    have read : Digits.number? 16 ([a, b, c, d].map fun x => Char.ofNat x.toNat) =
        some (((i * 16 + j) * 16 + k) * 16 + l) := by
      simp [Digits.number?, List.foldlM_cons, ha, hb, hc, hd, hi, hj, hk, hl]
    unfold readHex
    dsimp only
    rw [read]
    exact ⟨_, rfl⟩

/-- The escapes of one letter are those that are read, and each stands for one octet. -/
theorem shortEscape?_of_mem {b : UInt8} {c : Char} (h : (b, c) ∈ letters) :
    b ≠ 0x75 ∧ ∃ x, shortEscape? b = some x ∧ Utf8.encodeChar c = [x] := by
  have all : ∀ p ∈ letters, p.1 ≠ 0x75 ∧ shortEscape? p.1 = some p.2.toNat.toUInt8 ∧
      Utf8.encodeChar p.2 = [p.2.toNat.toUInt8] := by decide
  obtain ⟨hb, hx, hc⟩ := all _ h
  exact ⟨hb, _, hx, hc⟩

theorem readEscape_letter {b : UInt8} {c : Char} (h : (b, c) ∈ letters) :
    Gives (readEscape (b :: s)) (Utf8.encodeChar c) s := by
  obtain ⟨hb, x, hx, hc⟩ := shortEscape?_of_mem h
  unfold readEscape
  dsimp only
  rw [if_neg hb, hx, hc]
  exact ⟨_, rfl⟩

/-- No character is a surrogate. -/
theorem not_surrogate (c : Char) : isLow c.toNat = false ∧ isHigh c.toNat = false := by
  have hc : c.toNat < 0xD800 ∨ 0xDFFF < c.toNat ∧ c.toNat < 0x110000 := c.valid
  unfold isLow isHigh
  simp only [Bool.and_eq_false_iff, decide_eq_false_iff_not]
  omega

theorem readEscape_number {c : Char} (h : Hex c.toNat s t) :
    Gives (readEscape (0x75 :: s)) (Utf8.encodeChar c) t := by
  obtain ⟨hlow, hhigh⟩ := not_surrogate c
  obtain ⟨_, hx⟩ := readHex_gives h
  unfold readEscape readUnicode
  dsimp only
  rw [if_pos rfl, hx]
  simp only [hlow, hhigh, Bool.false_eq_true, Bool.not_false, if_false, if_true, Char.ofNat_toNat]
  exact ⟨_, rfl⟩

theorem readEscape_halves {c : Char} {i j : Nat} {u : Octets} (hi : i < 0x400) (hj : j < 0x400)
    (hc : c.toNat = 0x10000 + i * 0x400 + j) (hn : Hex (0xD800 + i) s (0x5C :: 0x75 :: t))
    (hm : Hex (0xDC00 + j) t u) : Gives (readEscape (0x75 :: s)) (Utf8.encodeChar c) u := by
  obtain ⟨_, hx⟩ := readHex_gives hn
  obtain ⟨_, hy⟩ := readHex_gives hm
  have high : isLow (0xD800 + i) = false ∧ isHigh (0xD800 + i) = true := by
    unfold isLow isHigh
    simp only [Bool.and_eq_false_iff, Bool.and_eq_true, decide_eq_false_iff_not, decide_eq_true_eq]
    omega
  have low : isLow (0xDC00 + j) = true := by
    unfold isLow
    simp only [Bool.and_eq_true, decide_eq_true_eq]
    omega
  have whole : 0x10000 + (0xD800 + i - 0xD800) * 0x400 + (0xDC00 + j - 0xDC00) = c.toNat := by omega
  unfold readEscape readUnicode
  dsimp only
  rw [if_pos rfl, hx]
  simp only [high, low, hy, whole, Bool.false_eq_true, Bool.not_true, if_false, if_true, Char.ofNat_toNat]
  exact ⟨_, rfl⟩

/-! ## Octets that stand for themselves -/

/-- An octet that neither ends a string nor begins an escape. -/
def IsPlainOctet (b : UInt8) : Prop := b ≠ 0x22 ∧ b ≠ 0x5C ∧ ¬ b < 0x20

theorem isPlainOctet_of_mem {c : Char} (hc : IsPlain c) {b : UInt8} (hb : b ∈ Utf8.encodeChar c) :
    IsPlainOctet b := by
  obtain ⟨hge, hquote, hslash⟩ := hc
  have hlt : c.toNat < 0xD800 ∨ 0xDFFF < c.toNat ∧ c.toNat < 0x110000 := c.valid
  have hquote : c.toNat ≠ 0x22 := fun h => hquote (Char.toNat_inj.mp h)
  have hslash : c.toNat ≠ 0x5C := fun h => hslash (Char.toNat_inj.mp h)
  suffices h : b.toNat ≠ 0x22 ∧ b.toNat ≠ 0x5C ∧ 0x20 ≤ b.toNat by
    refine ⟨fun he => h.1 (by rw [he]; rfl), fun he => h.2.1 (by rw [he]; rfl), fun hl => ?_⟩
    have hl : b.toNat < 0x20 := UInt8.lt_iff_toNat_lt.mp hl
    omega
  unfold Utf8.encodeChar at hb
  dsimp only at hb
  -- beyond ASCII every octet has its upper bit
  split at hb
  · cases List.mem_singleton.mp hb
    rw [Utf8.toNat_toUInt8 (by omega)]
    omega
  split at hb
  · simp only [List.mem_cons, List.not_mem_nil, or_false] at hb
    rcases hb with rfl | rfl <;> rw [Utf8.toNat_toUInt8 (by omega)] <;> omega
  split at hb
  · simp only [List.mem_cons, List.not_mem_nil, or_false] at hb
    rcases hb with rfl | rfl | rfl <;> rw [Utf8.toNat_toUInt8 (by omega)] <;> omega
  · simp only [List.mem_cons, List.not_mem_nil, or_false] at hb
    rcases hb with rfl | rfl | rfl | rfl <;> rw [Utf8.toNat_toUInt8 (by omega)] <;> omega

/-! ## Reading -/

theorem readOctets_plain {bs done all : Octets} (hb : ∀ b ∈ bs, IsPlainOctet b)
    (h : Gives (readOctets (bs.reverse ++ done) s) all r) : Gives (readOctets done (bs ++ s)) all r := by
  induction bs generalizing done with
  | nil => exact h
  | cons b bs ih =>
    obtain ⟨hquote, hslash, hspace⟩ := hb b List.mem_cons_self
    rw [List.reverse_cons, List.append_assoc, List.singleton_append] at h
    obtain ⟨_, hx⟩ := ih (fun x hx => hb x (List.mem_cons_of_mem b hx)) h
    rw [List.cons_append, readOctets, if_neg hquote, if_neg hslash, if_neg hspace, hx]
    exact ⟨_, rfl⟩

theorem readOctets_escape {done all x : Octets} (hx : Gives (readEscape s) x t)
    (h : Gives (readOctets (x.reverse ++ done) t) all r) : Gives (readOctets done (0x5C :: s)) all r := by
  obtain ⟨_, hx⟩ := hx
  obtain ⟨_, hy⟩ := h
  rw [readOctets, if_neg (by decide), if_pos rfl, hx]
  dsimp only
  rw [hy]
  exact ⟨_, rfl⟩

/-- What was read before stays before the octets of the text. -/
theorem readOctets_gives {cs : List Char} (h : Spelled cs s r) (done : Octets) :
    Gives (readOctets done s) (done.reverse ++ Utf8.encode cs) r := by
  have next (c : Char) (cs : List Char) (done : Octets) :
      ((Utf8.encodeChar c).reverse ++ done).reverse ++ Utf8.encode cs = done.reverse ++ Utf8.encode (c :: cs) := by
    simp [Utf8.encode]
  induction h generalizing done with
  | close =>
    rw [readOctets, if_pos rfl, Utf8.encode, List.flatMap_nil, List.append_nil]
    exact ⟨_, rfl⟩
  | plain hc _ ih =>
    refine readOctets_plain (fun b hb => isPlainOctet_of_mem hc hb) ?_
    rw [← next]
    exact ih _
  | letter hb _ ih =>
    refine readOctets_escape (readEscape_letter hb) ?_
    rw [← next]
    exact ih _
  | number hn _ ih =>
    refine readOctets_escape (readEscape_number hn) ?_
    rw [← next]
    exact ih _
  | halves hi hj hc hn hm _ ih =>
    refine readOctets_escape (readEscape_halves hi hj hc hn hm) ?_
    rw [← next]
    exact ih _

/-- A string is read as the text that it spells. -/
theorem readText_gives {cs : List Char} (h : Spelled cs s r) : Gives (readText s) cs r := by
  obtain ⟨_, hx⟩ := readOctets_gives h []
  unfold readText
  rw [hx]
  dsimp only
  rw [List.reverse_nil, List.nil_append, Utf8.decode?_encode]
  exact ⟨_, rfl⟩

/-! ## Passing over -/

theorem skipText_plain {bs : Octets} (hb : ∀ b ∈ bs, IsPlainOctet b) (h : Leaves (skipText s) r) :
    Leaves (skipText (bs ++ s)) r := by
  induction bs with
  | nil => exact h
  | cons b bs ih =>
    obtain ⟨hquote, hslash, hspace⟩ := hb b List.mem_cons_self
    obtain ⟨_, hx⟩ := ih fun x hx => hb x (List.mem_cons_of_mem b hx)
    rw [List.cons_append, skipText, if_neg hquote, if_neg hslash, if_neg hspace, hx]
    exact ⟨_, rfl⟩

theorem skipText_escape (hx : Leaves (skipEscape s) t) (h : Leaves (skipText t) r) :
    Leaves (skipText (0x5C :: s)) r := by
  obtain ⟨_, hx⟩ := hx
  obtain ⟨_, hy⟩ := h
  rw [skipText, if_neg (by decide), if_pos rfl, hx]
  dsimp only
  rw [hy]
  exact ⟨_, rfl⟩

/-- A string is passed over, whatever it holds. -/
theorem skipText_leaves (h : Inside s r) : Leaves (skipText s) r := by
  induction h with
  | close =>
    rw [skipText, if_pos rfl]
    exact ⟨_, rfl⟩
  | plain hc _ ih => exact skipText_plain (fun b hb => isPlainOctet_of_mem hc hb) ih
  | letter hb _ ih =>
    obtain ⟨hu, x, hx, -⟩ := shortEscape?_of_mem hb
    refine skipText_escape ?_ ih
    unfold skipEscape
    dsimp only
    rw [if_neg hu, hx, if_pos Option.isSome_some]
    exact ⟨_, rfl⟩
  | number hn _ ih =>
    obtain ⟨_, hx⟩ := readHex_gives hn
    refine skipText_escape ?_ ih
    unfold skipEscape
    dsimp only
    rw [if_pos rfl, hx]
    exact ⟨_, rfl⟩

end HostedGit.Json
