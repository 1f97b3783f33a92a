/-
References by name. A full name below `refs/heads/` is a branch, one below `refs/tags/` a tag, and any
other text is taken for a commit id. The kind and the bare name together say as much as the full name.
-/
namespace HostedGit

/-- What a reference points at a version by. -/
inductive VersionType where
  | branch
  | tag
  | commit
  deriving DecidableEq, Repr

namespace VersionType

/-- The word the remote knows the kind by. -/
def word : VersionType → String
  | branch => "branch"
  | tag => "tag"
  | commit => "commit"

/-- What a full name of the kind starts with. -/
def root : VersionType → String
  | branch => "refs/heads/"
  | tag => "refs/tags/"
  | commit => ""

end VersionType

/-- A version of a repository: the kind of reference and its bare name. -/
structure Version where
  type : VersionType
  name : String
  deriving DecidableEq, Repr

namespace Version

/-- The bare name, for a reference that lies below the root of `type`. -/
def below? (type : VersionType) (reference : String) : Option Version :=
  (type.root.toList.isPrefixOf? reference.toList).map fun name => ⟨type, String.ofList name⟩

/-- The version that a full reference name stands for. -/
def ofReference (reference : String) : Version :=
  (below? .branch reference <|> below? .tag reference).getD ⟨.commit, reference⟩

/-- The full name of a version. -/
def reference (v : Version) : String := v.type.root ++ v.name

end Version

end HostedGit
