/-
Domain names as a URL shows them: in small letters and in ASCII. A label with other characters is written
in Punycode, after `xn--`; such a label is refused unless it is the written form of what it stands for.
-/
import HostedGit.Idna.Direction
import HostedGit.Idna.Joining
import HostedGit.Idna.Mapping
import HostedGit.Idna.Mark
import HostedGit.Text.Punycode

namespace HostedGit.Domain

/-- The characters that no domain name holds. -/
def isForbidden (c : Char) : Bool :=
  c.toNat ≤ 0x20 || c.toNat = 0x7F ||
    ['#', '/', ':', '<', '>', '?', '@', '[', '\\', ']', '^', '|', '%'].contains c

/-- Whether a text is ASCII. -/
def isAscii (cs : List Char) : Bool := cs.all fun c => c.toNat < 0x80

/-! ## Labels -/

/-- What a label in Punycode starts with. -/
def mark : List Char := "xn--".toList

/-- The most characters that a label in Punycode may have, and a label to be written in it. -/
def longest : Nat × Nat := (2000, 1000)

/-- The form in which a text is compared, if a domain name may hold its characters. -/
def normalForm? (cs : List Char) : Option (List Char) :=
  (cs.mapM Idna.Mapping.written?).map fun parts => Composition.normalize parts.flatten

/-- What a label stands for. -/
def read? (label : List Char) : Option (List Char) :=
  match mark.isPrefixOf? label with
  | none => some label
  | some written => do
    if !isAscii written || longest.1 < written.length then none
    let cs ← Punycode.decode? written
    if isAscii cs || normalForm? cs != some cs then none else some cs

/-- Whether a label starts with a character of its own and joins only what can be joined. -/
def isWellFormed (label : List Char) : Bool :=
  !label.head?.any Idna.Mark.contains && Idna.Joining.allFit [] label

/-- The ASCII form of a label. -/
def write? (label : List Char) : Option (List Char) :=
  if isAscii label then some label
  else if longest.2 < label.length then none
  else some (mark ++ Punycode.encode label)

/-! ## Names -/

/-- Whether the labels of a name can stand beside each other. -/
def isOrdered (labels : List (List Char)) : Bool :=
  !labels.any (·.any Idna.Direction.turns) || labels.all Idna.Direction.isSettled

/-- The ASCII form of a name that is not in ASCII, or has a label in Punycode. -/
def international? (name : List Char) : Option (List Char) := do
  let name ← normalForm? name
  if name.any isForbidden then none
  let labels ← (name.splitOn '.').mapM read?
  if !labels.all isWellFormed || !isOrdered labels then none
  return ".".toList.intercalate (← labels.mapM write?)

/-- Whether a name is in ASCII and has no label in Punycode. -/
def isPlain (name : List Char) : Bool :=
  isAscii name && (name.splitOn '.').all fun label => !mark.isPrefixOf label

/-- The ASCII form of a domain name. -/
def toAscii? (name : List Char) : Option (List Char) :=
  let small := name.map Char.toLower
  if isPlain small then if small.any isForbidden then none else some small
  else international? name

end HostedGit.Domain
