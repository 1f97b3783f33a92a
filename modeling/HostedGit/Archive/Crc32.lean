/-
The cyclic redundancy check that archives keep of each entry's content: the remainder of the content by
a polynomial over two elements, taken bit by bit from the least one of each octet.
-/
import HostedGit.Octets

namespace HostedGit.Crc32

/-- The polynomial, without its leading term and with the least power first. -/
def polynomial : UInt32 := 0xEDB88320

/-- Takes one bit out of the remainder. -/
def step (r : UInt32) : UInt32 := if r &&& 1 = 1 then (r >>> 1) ^^^ polynomial else r >>> 1

/-- Takes `n` bits out of the remainder. -/
def steps : Nat → UInt32 → UInt32
  | 0, r => r
  | n + 1, r => steps n (step r)

/-- Takes in one octet. -/
def feed (r : UInt32) (b : UInt8) : UInt32 := steps 8 (r ^^^ b.toUInt32)

/-- The check of a content. -/
def checksum (bs : Octets) : UInt32 := bs.foldl feed 0xFFFFFFFF ^^^ 0xFFFFFFFF

end HostedGit.Crc32
