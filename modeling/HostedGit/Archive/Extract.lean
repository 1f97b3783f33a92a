/-
Unpacking a zip archive into a directory of a file tree. Entries are written in the order of the archive;
the first one that cannot be written ends the work, and what was written before it stays. No entry leads
out of the destination: neither by `..`, nor from the root, nor through a link. Places count from the root of the
tree, also those that are written without a slash before them.
-/
import HostedGit.Archive.Zip
import HostedGit.FileTree

namespace HostedGit

/-- Why an archive is not unpacked. -/
inductive ExtractError where
  /-- There is no archive. -/
  | missing (archive : String)
  /-- The archive is no zip archive. -/
  | unreadable (archive : String)
  /-- The destination is no directory and cannot become one. -/
  | noDestination (destination : String)
  /-- One of the archive's entries cannot be written. -/
  | entries (count : Nat) (destination : String)
  /-- The extractor itself gave up. -/
  | refused (reason : String)
  deriving DecidableEq, Repr

/-- How an error is worded. -/
def ExtractError.message : ExtractError → String
  | missing archive => "Failed to open archive '" ++ archive ++ "'"
  | unreadable archive => "'" ++ archive ++ "' is not a valid zip archive"
  | noDestination destination => "Failed to create destination directory '" ++ destination ++ "'"
  | entries count destination =>
    "Failed to extract " ++ toString count ++ " entries into '" ++ destination ++ "'"
  | refused reason => reason

namespace Extract

/-! ## Places of entries -/

/-- Resolves the components of a name; `way` holds the ones so far, the last one first. None if they lead
out of where they start. -/
def resolve? (way : List String) : List (List Char) → Option Path
  | [] => some way.reverse
  | c :: rest =>
    if c = [] ∨ c = ".".toList then resolve? way rest
    else if c = "..".toList then
      match way with
      | [] => none
      | _ :: way => resolve? way rest
    else resolve? (String.ofList c :: way) rest

/-- The place that an entry's name stands for, below the destination. -/
def place? (name : List Char) : Option Path :=
  if name.contains '\x00' ∨ name.head? = some '/' then none
  else resolve? [] (name.splitOn '/')

/-! ## Ways -/

/-- Makes a change that may fail. -/
def change (f : FileTree → Option FileTree) : OptionT (StateM FileTree) Unit := do
  match f (← get) with
  | some t => set t
  | none => failure

/-- The most octets that a name in a directory can have. -/
def longestName : Nat := 255

/-- The most octets that a place can have in writing. -/
def longestPath : Nat := 4095

/-- Whether a name is too long by itself. -/
def isLongName (name : String) : Bool := longestName < (Utf8.encode name.toList).length

/-- Whether a name is too long to lead on from a place: by itself, or together with the place. -/
def isTooLong (start : Path) (name : String) : Bool :=
  isLongName name || longestPath < FileTree.size (start ++ [name])

/-- Makes the directories on the way from `start` to the last of `names`, which is left alone. Fails at
a link, at a file that is in the way, and at a name that is too long. -/
def openWay (start : Path) : (names : List String) → OptionT (StateM FileTree) Unit
  | [] => return
  | name :: names => do
    let p := start ++ [name]
    if isTooLong start name then failure
    match (← get).lookup p with
    | some (.link _) => failure
    | some (.file _) => if names.isEmpty then pure () else failure
    | some .directory => pure ()
    | none => if names.isEmpty then pure () else change (·.addDirectory? p)
    openWay p names

/-- Makes the directories that `names` lead to from `start`. -/
def makeWay (start : Path) : (names : List String) → OptionT (StateM FileTree) Unit
  | [] => return
  | name :: names => do
    if isLongName name then failure
    change (·.addDirectory? (start ++ [name]))
    makeWay (start ++ [name]) names

/-- Whether the last name in a text is a single dot, by which only a directory can be called that is there. -/
def endsInDot (text : String) : Bool :=
  ((text.toList.splitOn '/').filter (· ≠ [])).getLast? = some ".".toList

/-- Makes the directory that a text names, and those on the way to it. -/
def makeDestination (text : String) : OptionT (StateM FileTree) Unit := do
  let p := FileTree.place text
  if text.toList.contains '\x00' || longestPath < (Utf8.encode text.toList).length then failure
  else if endsInDot text then
    makeWay [] p.dropLast
    if (← get).lookup p = some .directory then return else failure
  else makeWay [] p

/-! ## Entries -/

/-- The most octets that the target of a link can have. -/
def longestTarget : Nat := 4095

/-- The target that a link's content names. -/
def target? (content : Octets) : Option String := do
  let cs ← Utf8.decode? content
  if cs = [] ∨ '\x00' ∈ cs ∨ longestTarget < content.length then none else some (String.ofList cs)

/-- Unpacks one entry. A file whose content is damaged is written as far as it can be read, and fails. -/
def entry (archive : Octets) (destination : Path) (e : Zip.Entry) : OptionT (StateM FileTree) Unit := do
  let some content := e.content? archive | failure
  let some way := place? e.name | failure
  let p := destination ++ way
  openWay destination way
  if e.isLink then
    if !content.isIntact then failure
    let some target := target? content.octets | failure
    change (·.addLink? p target)
  else if e.isDirectory then change (·.openDirectory? p)
  else
    change (·.writeFile? p content.octets)
    if !content.isIntact then failure

/-- Unpacks entries in their order. -/
def entries (archive : Octets) (destination : Path) : List Zip.Entry → OptionT (StateM FileTree) Unit
  | [] => return
  | e :: rest => do
    entry archive destination e
    entries archive destination rest

/-- Locks the file that came of an entry, or unlocks it, if the entry says so. -/
def settle (destination : Path) (t : FileTree) (e : Zip.Entry) : FileTree :=
  match e.isLink || e.isDirectory, e.isReadOnly?, place? e.name with
  | false, some on, some way => t.setLocked (destination ++ way) on
  | _, _, _ => t

/-- Unpacks entries into a destination that is there. Files are locked when everything has been unpacked. -/
def unpack (archive : Octets) (destination : String) (all : List Zip.Entry) : OptionT (StateM FileTree) Unit := do
  let p := FileTree.place destination
  -- where the destination is, from the root on, is asked for first
  if destination = "" || longestPath < FileTree.size p then failure
  else
    entries archive p all
    modify (all.foldl (settle p))

/-! ## Archives -/

/-- What becomes of a tree in which something is tried. -/
abbrev Attempt := ExceptT ExtractError (StateM FileTree)

/-- Tries something that may fail with an error. -/
def orThrow (act : OptionT (StateM FileTree) Unit) (e : ExtractError) : Attempt Unit := do
  let (result, t) := act.run.run (← get)
  set t
  if result.isNone then throw e

/-- Unpacks an archive, if there is one, into a destination, which is made if it is missing. Answers the
number of entries. `name` is how messages call the archive. -/
def archive (name : String) (content : Option Octets) (destination : String) : Attempt Nat := do
  let some content := content | throw (.missing name)
  let some all := Zip.read? content | throw (.unreadable name)
  orThrow (makeDestination destination) (.noDestination destination)
  orThrow (unpack content destination all) (.entries all.length destination)
  return all.length

end Extract

end HostedGit
