/-
Narrowing a listing to the paths that end in given ways.
-/
namespace HostedGit.PathFilter

/-- A path is kept if it ends with one of the extensions, or if there are none. -/
def accepts (extensions : List String) (path : String) : Bool :=
  extensions.isEmpty || extensions.any fun ext => ext.toList.isSuffixOf path.toList

/-- The accepted paths, in their order. -/
def select (extensions paths : List String) : List String := paths.filter (accepts extensions)

end HostedGit.PathFilter
