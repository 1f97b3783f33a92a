/-
What the remote answers with: lists of references, items and trees. Members that are not named here are
passed over.
-/
import HostedGit.Json.Record

namespace HostedGit.Payload

open Json

/-- A field that has to be there. -/
def required {α : Type} (name : String) : Json.Field α := ⟨name, [], none⟩

/-- A field that is `a` where it is missing. -/
def optional {α : Type} (name : String) (a : α) : Json.Field α := ⟨name, [], some a⟩

/-- The root of a repository at a version: the object that is its tree, and the commit. -/
structure RootItem where
  objectId : String
  commitId : String
  path : String
  deriving DecidableEq, Repr

/-- Reads a root item; what is missing is empty. -/
def rootItem : Reader RootItem :=
  Reader.map (fun all => ⟨all.getD 0 "", all.getD 1 "", all.getD 2 ""⟩)
    (Record.read
      ⟨"RootItem", [optional "objectId" "", optional "commitId" "", optional "path" ""], readString⟩)

/-- Reads a list in its envelope, an object that holds it as `value` or `Value`. -/
def valueList {α : Type} (value : Reader α) : Reader (List α) :=
  Reader.map (·.headD []) (Record.read ⟨"ValueList", [⟨"value", ["Value"], some []⟩], readList value⟩)

/-- Reads the name of a reference. -/
def gitRef : Reader String :=
  Reader.map (·.headD "") (Record.read ⟨"GitRef", [required "name"], readString⟩)

/-- Reads the path of an entry of a tree. -/
def treeEntry : Reader String :=
  Reader.map (·.headD "") (Record.read ⟨"TreeEntry", [required "relativePath"], readString⟩)

/-- Reads the paths of a tree. -/
def tree : Reader (List String) :=
  Reader.map (·.headD [])
    (Record.read ⟨"Tree", [optional "treeEntries" []], readList treeEntry⟩)

/-- The reference that only points at another one, which no listing shows. -/
def symbolicHead : String := "HEAD"

/-- The reference names in a body, without the symbolic one. -/
def decodeRefs (body : Octets) : Except Json.Error (List String) :=
  (decode (valueList gitRef) body).map fun names => names.filter (· ≠ symbolicHead)

/-- The items in a body. -/
def decodeItems (body : Octets) : Except Json.Error (List RootItem) := decode (valueList rootItem) body

/-- The paths in a body. -/
def decodeTree (body : Octets) : Except Json.Error (List String) := decode tree body

end HostedGit.Payload
