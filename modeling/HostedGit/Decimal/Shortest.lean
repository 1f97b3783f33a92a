/-
The shortest decimal that reads back as a given binary number, and its text. For 1, 2, … 17 digits, the
two neighbours of the value on the grid of decimals with that many digits are tried; the first grid with
a neighbour inside the rounding interval wins, and of two such neighbours the nearer one.
-/
import HostedGit.Decimal.Binary64

namespace HostedGit.Binary64

/-- The decimal `digits * 10 ^ exponent`. -/
structure Decimal where
  digits : Nat
  exponent : Int

/-- How many digits a number has. -/
def digitCount (n : Nat) : Nat := (Nat.toDigits 10 n).length

/-- The exponent of the first digit of `num / den`. -/
def firstDigit (num den : Nat) : Int :=
  if den ≤ num then (digitCount (num / den) : Int) - 1
  else
    let n := digitCount (den / num)
    if den = num * Nat.pow 10 (n - 1) then 1 - (n : Int) else -(n : Int)

/-- Whether `digits * 10 ^ k` reads back as `x`: it lies between the middles to the neighbours of `x`.
All sides are compared in quarters of the last bit of `x`. -/
def readsBack (x : Binary64) (digits : Nat) (k : Int) : Bool :=
  let unit : Int := x.exponent - 2
  let side (n : Nat) : Nat := (n <<< unit.toNat) * Nat.pow 10 (-k).toNat
  let value := (digits * Nat.pow 10 k.toNat) <<< (-unit).toNat
  let low := side (4 * x.mantissa - if x.mantissa = 1 <<< 52 ∧ -1074 < x.exponent then 1 else 2)
  let high := side (4 * x.mantissa + 2)
  if x.mantissa % 2 = 0 then low ≤ value && value ≤ high else low < value && value < high

/-- The better one of two neighbours on the grid of `10 ^ k`, if any reads back. -/
def onGrid? (x : Binary64) (k : Int) : Option Decimal :=
  let (num, den) := x.fraction
  let num := num * Nat.pow 10 (-k).toNat
  let den := den * Nat.pow 10 k.toNat
  let below := num / den
  let nearer := roundDiv num den
  let other := if nearer = below then below + 1 else below
  if readsBack x nearer k then some ⟨nearer, k⟩
  else if readsBack x other k then some ⟨other, k⟩
  else none

/-- The shortest decimal. -/
def shortest (x : Binary64) : Decimal :=
  let (num, den) := x.fraction
  let first := firstDigit num den
  ((List.range 17).findSome? fun n : Nat => onGrid? x (first - n)).getD ⟨0, 0⟩

/-- A decimal without zeros at its end. -/
def Decimal.trim (d : Decimal) : Decimal :=
  let zeros := ((Nat.toDigits 10 d.digits).reverse.takeWhile (· = '0')).length
  if d.digits = 0 then d else ⟨d.digits / Nat.pow 10 zeros, d.exponent + zeros⟩

/-- Positional from `1e-5` to below `1e16`, with at least one place; with an exponent elsewhere. -/
def Decimal.text (d : Decimal) : List Char :=
  let ds := Nat.toDigits 10 d.digits
  let point : Int := ds.length + d.exponent
  if d.digits = 0 then "0.0".toList
  else if 0 ≤ d.exponent ∧ point ≤ 16 then
    ds ++ List.replicate d.exponent.toNat '0' ++ ".0".toList
  else if 0 < point ∧ point ≤ 16 then
    ds.take point.toNat ++ '.' :: ds.drop point.toNat
  else if -5 < point ∧ point ≤ 0 then
    "0.".toList ++ List.replicate (-point).toNat '0' ++ ds
  else
    let mantissa := if ds.length = 1 then ds else ds.take 1 ++ '.' :: ds.drop 1
    let e := point - 1
    mantissa ++ 'e' :: (if e < 0 then ['-'] else []) ++ Nat.toDigits 10 e.natAbs

/-- The shortest text that reads back. -/
def text (x : Binary64) : List Char := x.shortest.trim.text

end HostedGit.Binary64
