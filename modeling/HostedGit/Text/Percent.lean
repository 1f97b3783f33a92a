/-
Percent-encoding: a character outside the safe set is written as its UTF-8 octets, each as `%` and two
hexadecimal digits. Decoding reads such a triple back as an octet, keeps a `%` that starts none, and
reads the octets as UTF-8, leniently.
-/
import HostedGit.Text.Digits
import HostedGit.Text.Utf8

namespace HostedGit.Percent

/-- An octet as `%` and two digits. -/
def escape (b : UInt8) : List Char := ['%', Digits.upper (b.toNat / 16), Digits.upper (b.toNat % 16)]

/-- Writes the characters in `safe` as they are and escapes the octets of the others. -/
def encode (safe : Char → Bool) (cs : List Char) : List Char :=
  cs.flatMap fun c => if safe c then [c] else (Utf8.encodeChar c).flatMap escape

/-- Reads triples as octets and everything else as its own octets. -/
def decodeBytes : List Char → List UInt8
  | '%' :: a :: b :: rest =>
    match Digits.value? a, Digits.value? b with
    | some x, some y => (16 * x + y).toUInt8 :: decodeBytes rest
    | _, _ => 0x25 :: decodeBytes (a :: b :: rest)
  | c :: rest => Utf8.encodeChar c ++ decodeBytes rest
  | [] => []

/-- The text that a percent-encoded text stands for. -/
def decode (cs : List Char) : List Char := Utf8.decodeLossy (decodeBytes cs)

/-! ## Safe sets -/

/-- A printable ASCII character, the space among them. -/
def isVisible (c : Char) : Bool := 0x20 ≤ c.toNat && c.toNat < 0x7F

/-- The unreserved characters of a URI: letters, digits, `-`, `.`, `_` and `~`. -/
def isUnreserved (c : Char) : Bool := c.isAlphanum || ['-', '.', '_', '~'].contains c

end HostedGit.Percent
