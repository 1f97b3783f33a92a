/-
Code page 437, which names in archives are written in where nothing else is said.
-/
import HostedGit.Octets

namespace HostedGit.CodePage

/-- The characters of the octets from 0x80 on. -/
def upperHalf : List Char :=
  ("ÇüéâäàåçêëèïîìÄÅÉæÆôöòûùÿÖÜ¢£¥₧ƒáíóúñÑªº¿⌐¬½¼¡«»░▒▓│┤╡╢╖╕╣║╗╝╜╛┐" ++
    "└┴┬├─┼╞╟╚╔╩╦╠═╬╧╨╤╥╙╘╒╓╫╪┘┌█▄▌▐▀αßΓπΣσµτΦΘΩδ∞φε∩≡±≥≤⌠⌡÷≈°∙·√ⁿ²■\u00a0").toList

/-- The character of an octet. -/
def charOf (b : UInt8) : Char :=
  if b.toNat < 0x80 then Char.ofNat b.toNat else upperHalf.getD (b.toNat - 0x80) '\x00'

/-- The text of octets. -/
def decode (bs : Octets) : List Char := bs.map charOf

end HostedGit.CodePage
