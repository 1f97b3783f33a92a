/-
Base64 is undone by decoding, whatever the octets are and however many of them there are.
-/
import HostedGit.Text.Base64

namespace HostedGit.Base64

/-! ## Digits -/

/-- A digit is worth what it was written for. -/
theorem value?_digit : ∀ {n : Nat}, n < 64 → value? (digit n) = some n := by decide

theorem digit_ne_pad : ∀ {n : Nat}, n < 64 → digit n ≠ '=' := by decide

/-! ## Groups of octets -/

theorem decode?_one {x y : Nat} (hx : x < 64) (hy : y < 64) (h : (x * 64 + y) % 16 = 0) :
    decode? [digit x, digit y, '=', '='] = some [((x * 64 + y) / 16).toUInt8] := by
  simp [decode?, value?_digit hx, value?_digit hy, h]

theorem decode?_two {x y z : Nat} (hx : x < 64) (hy : y < 64) (hz : z < 64) (h : ((x * 64 + y) * 64 + z) % 4 = 0) :
    decode? [digit x, digit y, digit z, '='] =
      some [(((x * 64 + y) * 64 + z) / 1024).toUInt8, (((x * 64 + y) * 64 + z) / 4 % 256).toUInt8] := by
  simp [decode?, value?_digit hx, value?_digit hy, value?_digit hz, digit_ne_pad hz, h]

/-- Four digits without padding are three octets, and the rest is decoded for itself. -/
theorem decode?_three {x y z w : Nat} (hx : x < 64) (hy : y < 64) (hz : z < 64) (hw : w < 64) (rest : List Char) :
    decode? (digit x :: digit y :: digit z :: digit w :: rest) = (decode? rest).map fun more =>
      ((((x * 64 + y) * 64 + z) * 64 + w) / 65536).toUInt8 ::
        ((((x * 64 + y) * 64 + z) * 64 + w) / 256 % 256).toUInt8 ::
        ((((x * 64 + y) * 64 + z) * 64 + w) % 256).toUInt8 :: more := by
  rw [decode?]
  · simp only [value?_digit hx, value?_digit hy, value?_digit hz, value?_digit hw, Option.bind_eq_bind,
      Option.bind_some]
    cases decode? rest <;> rfl
  · intro pad _ _
    exact digit_ne_pad hz pad
  · intro pad _
    exact digit_ne_pad hw pad

theorem toUInt8_of_eq {n : Nat} {b : UInt8} (h : n = b.toNat) : n.toUInt8 = b := by
  rw [h]
  exact UInt8.ofNat_toNat

/-- Decoding gives back what was encoded. -/
theorem decode?_encode (bs : List UInt8) : decode? (encode bs) = some bs := by
  fun_induction encode bs with
  | case1 a b c rest n ih =>
    have ha := a.toNat_lt
    have hb := b.toNat_lt
    have hc := c.toNat_lt
    have whole : ((n / 262144 * 64 + n / 4096 % 64) * 64 + n / 64 % 64) * 64 + n % 64 = n := by omega
    rw [decode?_three (by omega) (by omega) (by omega) (by omega), ih, whole]
    simp only [Option.map_some]
    rw [toUInt8_of_eq (b := a) (by omega), toUInt8_of_eq (b := b) (by omega), toUInt8_of_eq (b := c) (by omega)]
  | case2 a b n =>
    have ha := a.toNat_lt
    have hb := b.toNat_lt
    have whole : (n / 4096 * 64 + n / 64 % 64) * 64 + n % 64 = n := by omega
    rw [decode?_two (by omega) (by omega) (by omega) (by omega), whole, toUInt8_of_eq (b := a) (by omega),
      toUInt8_of_eq (b := b) (by omega)]
  | case3 a n =>
    have ha := a.toNat_lt
    have whole : n / 64 * 64 + n % 64 = n := by omega
    rw [decode?_one (by omega) (by omega) (by omega), whole, toUInt8_of_eq (b := a) (by omega)]
  | case4 => rfl

end HostedGit.Base64
