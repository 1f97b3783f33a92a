/-
Trees of directories, files and symbolic links. A place in a tree is the list of names that leads there;
links are never followed. `lookup` and `isLocked` are the views that every change is said through. All that is in a
tree belongs to the user for whom the changes are made; that user can look into every directory, but is bound by locks.
-/
import HostedGit.Octets
import HostedGit.Table
import HostedGit.Text.Utf8

namespace HostedGit

/-- A place in a tree: the names on the way from the root. -/
abbrev Path := List String

/-- What can be at a place. -/
inductive Node where
  | directory
  | file (content : Octets)
  | link (target : String)
  deriving DecidableEq, Repr

/-- What is at the places of a tree, the root aside, which is always a directory. -/
structure FileTree where
  nodes : Table Path Node
  /-- The places whose owner may not write to them: files that keep their content, and directories that take nothing
  new. -/
  locked : List Path

namespace FileTree

/-- A tree without anything in it. -/
def empty : FileTree := ⟨.empty, []⟩

/-- What is at a place. -/
def lookup (t : FileTree) (p : Path) : Option Node :=
  if p = [] then some .directory else t.nodes.lookup p

/-- Whether a place is locked. -/
def isLocked (t : FileTree) (p : Path) : Bool := t.locked.contains p

/-- Locks a place, or unlocks it. -/
def setLocked (t : FileTree) (p : Path) (on : Bool) : FileTree :=
  { t with locked := if on then p :: t.locked else t.locked.filter (· ≠ p) }

/-- Puts something at a place, in place of what was there. It is not locked. -/
def put (t : FileTree) (p : Path) (n : Node) : FileTree :=
  { t with nodes := t.nodes.insert p n }.setLocked p false

@[simp] theorem lookup_setLocked (t : FileTree) (p q : Path) (on : Bool) :
    (t.setLocked p on).lookup q = t.lookup q := rfl

@[simp] theorem isLocked_setLocked (t : FileTree) (p q : Path) (on : Bool) :
    (t.setLocked p on).isLocked q = if q = p then on else t.isLocked q := by
  unfold setLocked isLocked
  grind

theorem lookup_put (t : FileTree) (p q : Path) (n : Node) (h : p ≠ []) :
    (t.put p n).lookup q = if q = p then some n else t.lookup q := by
  unfold put
  rw [lookup_setLocked]
  unfold lookup
  rw [Table.lookup_insert]
  grind

@[simp] theorem isLocked_put (t : FileTree) (p q : Path) (n : Node) :
    (t.put p n).isLocked q = if q = p then false else t.isLocked q :=
  isLocked_setLocked _ p q false

/-! ## Changes that can fail -/

/-- Puts something new into the directory that leads to a place, unless that one is locked. -/
def make? (t : FileTree) (p : Path) (n : Node) : Option FileTree :=
  if t.isLocked p.dropLast then none else some (t.put p n)

/-- A directory at a place: the one that is there, or a new one. Something else in its place stays. -/
def addDirectory? (t : FileTree) (p : Path) : Option FileTree :=
  match t.lookup p with
  | none => t.make? p .directory
  | some .directory => some t
  | some _ => none

/-- A directory at a place that takes something new: one that is there is unlocked. -/
def openDirectory? (t : FileTree) (p : Path) : Option FileTree := (t.addDirectory? p).map (·.setLocked p false)

/-- A file with a content: one that is there is emptied first, unless it is locked. A directory or a link stays. -/
def writeFile? (t : FileTree) (p : Path) (content : Octets) : Option FileTree :=
  match t.lookup p with
  | none => t.make? p (.file content)
  | some (.file _) => if t.isLocked p then none else some (t.put p (.file content))
  | some _ => none

/-- A new link. Nothing may be in its place. -/
def addLink? (t : FileTree) (p : Path) (target : String) : Option FileTree :=
  match t.lookup p with
  | none => t.make? p (.link target)
  | some _ => none

/-! ## Places in writing -/

/-- How a place is written. -/
def pathText (p : Path) : String := "/".intercalate p

/-- How many octets a place takes in writing, from the root on: each name behind a slash. -/
def size (p : Path) : Nat := (p.flatMap fun name => Utf8.encode ('/' :: name.toList)).length

/-- The place that is written in a given way. Empty names and single dots stand for nothing; two dots are a name like
any other. -/
def place (text : String) : Path :=
  ((text.toList.splitOn '/').filter fun name => name ≠ [] ∧ name ≠ ".".toList).map String.ofList

/-- What is below a place, each by its way from there, in the order of the written ways. -/
def listing (t : FileTree) (start : Path) : List (String × Node) :=
  let below := t.nodes.rows.filterMap fun (p, n) =>
    (start.isPrefixOf? p).bind fun way =>
      if way.isEmpty then none else some (pathText way, n)
  below.mergeSort fun a b => a.1 ≤ b.1

end FileTree

end HostedGit
