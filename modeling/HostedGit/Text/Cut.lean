/-
Cutting a text at a mark, and prefixes. `cut?` cuts at the first mark, `cutLast?` at the last one; the
mark itself belongs to neither part.
-/
namespace HostedGit.Text

/-- What stands before and after the first `mark`. -/
def cut? (mark : Char) : List Char → Option (List Char × List Char)
  | [] => none
  | c :: rest => if c = mark then some ([], rest) else (cut? mark rest).map fun p => (c :: p.1, p.2)

/-- What stands before and after the last `mark`. -/
def cutLast? (mark : Char) : List Char → Option (List Char × List Char)
  | [] => none
  | c :: rest =>
    match cutLast? mark rest with
    | some (before, after) => some (c :: before, after)
    | none => if c = mark then some ([], rest) else none

/-- Whether `part` occurs somewhere in a text. -/
def occursIn (part : List Char) : List Char → Bool
  | [] => part.isEmpty
  | c :: rest => part.isPrefixOf (c :: rest) || occursIn part rest

/-- What stands before `ending`, for a text that ends with it. -/
def beforeEnding? (ending cs : List Char) : Option (List Char) :=
  if ending.isSuffixOf cs then some (cs.take (cs.length - ending.length)) else none

end HostedGit.Text
