/-
Finite non-negative binary floating-point numbers of 64 bits, computed exactly: every operation gives
the number nearest to the exact result, of two nearest ones the one with the even mantissa.
-/
namespace HostedGit

/-- The number `mantissa * 2 ^ exponent`. A mantissa has at most 53 bits. -/
structure Binary64 where
  mantissa : Nat
  exponent : Int
  deriving DecidableEq, Repr

namespace Binary64

/-- Zero. -/
def zero : Binary64 := ⟨0, 0⟩

/-- The value as a fraction. -/
def fraction (x : Binary64) : Nat × Nat :=
  (x.mantissa <<< x.exponent.toNat, 1 <<< (-x.exponent).toNat)

/-- The quotient to the nearest whole number, a half going to the even one. -/
def roundDiv (num den : Nat) : Nat :=
  let q := num / den
  let r := 2 * (num % den)
  if r < den ∨ (r = den ∧ q % 2 = 0) then q else q + 1

/-- `num / den / 2 ^ e`, rounded. -/
def scaled (num den : Nat) (e : Int) : Nat := roundDiv (num <<< (-e).toNat) (den <<< e.toNat)

/-- The exponent of the last bit of the number nearest to `num / den`. -/
def lastBit (num den : Nat) : Int :=
  let e : Int := (num.log2 : Int) - den.log2 - 52
  let e := if num <<< (-e).toNat < den <<< (52 + e.toNat) then e - 1 else e
  max e (-1074)

/-- The number nearest to `num / den`; none where it is too large. -/
def ofFraction? (num den : Nat) : Option Binary64 :=
  if num = 0 then some zero
  else
    let e := lastBit num den
    let m := scaled num den e
    let x : Binary64 := if m = 1 <<< 53 then ⟨1 <<< 52, e + 1⟩ else ⟨m, e⟩
    if 971 < x.exponent then none else some x

/-- The product. -/
def mul? (x y : Binary64) : Option Binary64 :=
  ofFraction? (x.fraction.1 * y.fraction.1) (x.fraction.2 * y.fraction.2)

/-- The quotient. -/
def div? (x y : Binary64) : Option Binary64 :=
  ofFraction? (x.fraction.1 * y.fraction.2) (x.fraction.2 * y.fraction.1)

/-- The number nearest to a power of ten. -/
def tenPow? (n : Nat) : Option Binary64 := ofFraction? (Nat.pow 10 n) 1

end Binary64

end HostedGit
