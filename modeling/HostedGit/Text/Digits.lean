/-
Digits of bases up to sixteen.
-/
namespace HostedGit.Digits

/-- The value of a digit, hexadecimal ones in either case. -/
def value? (c : Char) : Option Nat :=
  if '0' ≤ c ∧ c ≤ '9' then some (c.toNat - 48)
  else if 'a' ≤ c ∧ c ≤ 'f' then some (c.toNat - 87)
  else if 'A' ≤ c ∧ c ≤ 'F' then some (c.toNat - 55)
  else none

/-- The upper-case digit of a number below sixteen. -/
def upper (n : Nat) : Char := if n < 10 then Char.ofNat (48 + n) else Char.ofNat (55 + n)

/-- The number that digits of a base stand for; no digits stand for zero. -/
def number? (base : Nat) (cs : List Char) : Option Nat :=
  cs.foldlM (fun n c => do
    let d ← value? c
    if d < base then some (n * base + d) else none) 0

end HostedGit.Digits
