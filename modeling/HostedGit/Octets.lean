/-
Octets as lists, and the numbers that binary records hold, least octet first.
-/
namespace HostedGit

/-- A row of octets. -/
abbrev Octets := List UInt8

namespace Octets

/-- The number that octets hold, the least one first. -/
def toNat (bs : Octets) : Nat := bs.foldr (fun b n => b.toNat + 256 * n) 0

/-- The octets of a number, the least one first. -/
def ofNat (size n : Nat) : Octets :=
  match size with
  | 0 => []
  | size + 1 => (n % 256).toUInt8 :: ofNat size (n / 256)

/-- The octets of a part, or as many of them as there are. -/
def part (bs : Octets) (start size : Nat) : Octets := (bs.drop start).take size

/-- The number that a part holds. -/
def number (bs : Octets) (start size : Nat) : Nat := (bs.part start size).toNat

@[simp] theorem length_ofNat (size n : Nat) : (ofNat size n).length = size := by
  induction size generalizing n with
  | zero => rfl
  | succ size ih => simp [ofNat, ih]

theorem toNat_ofNat (size n : Nat) : (ofNat size n).toNat = n % Nat.pow 256 size := by
  induction size generalizing n with
  | zero => simp [ofNat, toNat, Nat.mod_one]
  | succ size ih =>
    have h := ih (n / 256)
    unfold toNat at h ⊢
    rw [ofNat, List.foldr_cons, h, Nat.pow_eq, Nat.pow_eq, Nat.pow_succ, Nat.mul_comm (256 ^ size) 256,
      Nat.mod_mul]
    simp [Nat.toUInt8]

/-- The places at or after `start` where a mark stands, in their order, for octets that begin at
`start`. -/
def places (mark : Octets) (start : Nat) : Octets → List Nat
  | [] => []
  | b :: rest =>
    if mark.isPrefixOf (b :: rest) then start :: places mark (start + 1) rest
    else places mark (start + 1) rest

end Octets

end HostedGit
