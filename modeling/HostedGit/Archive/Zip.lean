/-
Zip archives. An archive is read from its end: the end record, which anything may follow that looks like
a comment, says where the directory is, and the directory says where each entry is. Octets before the
first entry move everything, so the directory is looked for from the place it is said to be at.
-/
import HostedGit.Archive.Crc32
import HostedGit.Archive.Deflate
import HostedGit.Text.CodePage
import HostedGit.Text.Utf8

namespace HostedGit.Zip

/-! ## Records -/

/-- What an end record starts with. -/
def endMark : Octets := [0x50, 0x4B, 0x05, 0x06]

/-- What an entry of the directory starts with. -/
def directoryMark : Octets := [0x50, 0x4B, 0x01, 0x02]

/-- What the header before an entry's content starts with. -/
def contentMark : Octets := [0x50, 0x4B, 0x03, 0x04]

/-- The record of a given size at a place, if it starts with its mark and is all there. -/
def record? (archive : Octets) (mark : Octets) (place size : Nat) : Option Octets :=
  let r := archive.part place size
  if r.length = size ∧ mark.isPrefixOf r then some r else none

/-- The end of an archive. -/
structure EndRecord where
  /-- Where the record is. -/
  place : Nat
  /-- How many entries the directory has. -/
  count : Nat
  /-- Where the directory is said to be. -/
  directory : Nat

/-- Reads an end record. The archive has to be in one part, and the comment that the record announces has
to fit behind it. -/
def EndRecord.read? (archive : Octets) (place : Nat) : Option EndRecord := do
  let r ← record? archive endMark place 22
  if archive.length < place + 22 + r.number 20 2 || r.number 4 2 != r.number 6 2 then none
  else some ⟨place, r.number 8 2, r.number 16 4⟩

/-- An entry as the directory has it. -/
structure Entry where
  name : List Char
  /-- The kind of system that made the entry. -/
  system : Nat
  flags : Nat
  method : Nat
  checksum : Nat
  /-- The number of octets that the content takes up in the archive. -/
  size : Nat
  attributes : Nat
  /-- Where the header before the content is. -/
  place : Nat

/-- The text of a name: UTF-8 if the flags say so. -/
def nameOf (flags : Nat) (name : Octets) : List Char :=
  if flags.testBit 11 then Utf8.decodeLossy name else CodePage.decode name

/-- Reads the entry at a place and where the next one is. Places in the record count from `shift`. -/
def Entry.read? (archive : Octets) (shift place : Nat) : Option (Entry × Nat) := do
  let r ← record? archive directoryMark place 46
  let nameSize := r.number 28 2
  let next := place + 46 + nameSize + r.number 30 2 + r.number 32 2
  if archive.length < next then none
  else
    some ({
      name := nameOf (r.number 8 2) (archive.part (place + 46) nameSize)
      system := r.number 5 1
      flags := r.number 8 2
      method := r.number 10 2
      checksum := r.number 16 4
      size := r.number 20 4
      attributes := r.number 38 4
      place := shift + r.number 42 4 }, next)

/-! ## Directories -/

/-- Reads `n` entries, one behind the other. -/
def entries? (archive : Octets) (shift : Nat) : (n place : Nat) → Option (List Entry)
  | 0, _ => some []
  | n + 1, place => do
    let (entry, next) ← Entry.read? archive shift place
    return entry :: (← entries? archive shift n next)

/-- Adds an entry. One whose name is there already replaces the other at its place. -/
def addEntry (entries : List Entry) (e : Entry) : List Entry :=
  if entries.any (·.name = e.name) then entries.map fun old => if old.name = e.name then e else old
  else entries ++ [e]

/-- The entries of the directory that an end record names. Their content lies before the directory. -/
def EndRecord.entries? (archive : Octets) (r : EndRecord) : Option (List Entry) :=
  if r.count = 0 then some []
  else do
    let start ← (Octets.places directoryMark r.directory (archive.drop r.directory)).find? (· < r.place)
    let entries ← Zip.entries? archive (start - r.directory) r.count start
    if entries.all (·.place < start) then some (entries.foldl addEntry []) else none

/-- Reads the entries of an archive, no two of one name. The last end record that everything can be found
by counts. -/
def read? (archive : Octets) : Option (List Entry) :=
  (Octets.places endMark 0 archive).reverse.findSome? fun place => do
    (← EndRecord.read? archive place).entries? archive

/-! ## Entries -/

namespace Entry

/-- Whether the content is encrypted. -/
def isEncrypted (e : Entry) : Bool := e.flags.testBit 0

/-- Whether an entry is a directory: its name ends in a separator. -/
def isDirectory (e : Entry) : Bool := e.name.getLast?.any fun c => c = '/' || c = '\\'

/-- Whether an entry is a symbolic link, which only some systems make. -/
def isLink (e : Entry) : Bool :=
  let mode := e.attributes / 0x10000
  e.system = 3 && mode.testBit 13 && mode.testBit 15

/-- Whether the owner of what comes of an entry may not write to it, if the entry says so. What it says depends on the
system that made it. -/
def isReadOnly? (e : Entry) : Option Bool :=
  if e.attributes = 0 then none
  else
    match e.system with
    | 0 => some (e.attributes.testBit 0)
    | 3 => some !(e.attributes / 0x10000).testBit 7
    | _ => none

/-- What can be read of a content, and whether that is all of it. -/
structure Content where
  octets : Octets
  isIntact : Bool

/-- Expands what an archive holds of an entry: as it is, or compressed. -/
def expand? (method : Nat) (stored : Octets) : Option Content :=
  match method with
  | 0 => some ⟨stored, true⟩
  | 8 =>
    let r := Deflate.inflate stored
    some ⟨r.output, r.flaw.isNone⟩
  | _ => none

/-- The content of an entry. None can be read of one that is encrypted, or that has no header where the
directory says. -/
def content? (archive : Octets) (e : Entry) : Option Content := do
  if e.isEncrypted then none
  let r ← record? archive contentMark e.place 30
  let stored := archive.part (e.place + 30 + r.number 26 2 + r.number 28 2) e.size
  let c ← expand? e.method stored
  return ⟨c.octets, c.isIntact && (Crc32.checksum c.octets).toNat = e.checksum⟩

end Entry

end HostedGit.Zip
