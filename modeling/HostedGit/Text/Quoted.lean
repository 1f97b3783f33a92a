/-
Texts in double quotes, for messages: a backslash comes before quotes and backslashes, a few controls
have a letter, and other characters that cannot be shown are written by their number.
-/
import HostedGit.Text.Unprintable

namespace HostedGit.Quoted

/-- One character inside the quotes. A mark that joins the character before it is written by number. -/
def encodeChar (c : Char) : List Char :=
  if c = '\x00' then "\\0".toList
  else if c = '\t' then "\\t".toList
  else if c = '\r' then "\\r".toList
  else if c = '\n' then "\\n".toList
  else if c = '\\' ∨ c = '\x22' then ['\\', c]
  else if Unprintable.contains c then
    "\\u\x7b".toList ++ Nat.toDigits 16 c.toNat ++ "\x7d".toList
  else [c]

/-- The text in quotes. -/
def encode (cs : List Char) : List Char := '\x22' :: cs.flatMap encodeChar ++ ['\x22']

end HostedGit.Quoted
