/-
The resources of the Git REST API that answer for a repository, and their URLs below the base URL of a
server.
-/
import HostedGit.Locator
import HostedGit.Reference
import HostedGit.Url.Edit

namespace HostedGit

/-- A resource of a repository. An empty reference stands for the default branch. -/
inductive Endpoint where
  | refs
  | rootItem (reference : String)
  | tree (objectId : String)
  | download (reference : String)
  deriving DecidableEq, Repr

namespace Endpoint

/-- What a resource is called in messages. -/
def name : Endpoint → String
  | refs => "list refs"
  | rootItem _ => "root item"
  | tree _ => "list tree"
  | download _ => "download"

/-- The version of the API that is asked for. -/
def apiVersion : String × String := ("api-version", "6.0")

/-- The pairs that pick a version; the default branch needs none. -/
def versionPairs (reference : String) : List (String × String) :=
  if reference.isEmpty then []
  else
    let v := Version.ofReference reference
    [("versionDescriptor.versionType", v.type.word), ("versionDescriptor.version", v.name)]

/-- The segments below the repository. -/
def tail : Endpoint → List String
  | refs => ["refs"]
  | rootItem _ => ["items"]
  | tree objectId => ["trees", objectId]
  | download _ => ["items"]

/-- The query of a resource. -/
def pairs : Endpoint → List (String × String)
  | refs => [apiVersion]
  | rootItem reference => ("scopePath", "/") :: versionPairs reference ++ [apiVersion]
  | tree _ => [("recursive", "true"), apiVersion]
  | download reference =>
    [("scopePath", "/"), ("download", "true")] ++ versionPairs reference ++
      [("$format", "zip"), ("recursionLevel", "full"), apiVersion]

/-- The segments of a resource below the base URL. -/
def segments (l : Locator) (e : Endpoint) : List String :=
  [l.organization, l.project, "_apis", "git", "repositories", l.repository] ++ e.tail

/-- The URL of a resource on the server at `base`. -/
def url (base : String) (l : Locator) (e : Endpoint) : Except UrlError Url := do
  let u ← Url.parse base.toList
  let u ← u.extendSegments ((e.segments l).map String.toList)
  return u.appendQuery (e.pairs.map fun p => (p.1.toList, p.2.toList))

end Endpoint

end HostedGit
