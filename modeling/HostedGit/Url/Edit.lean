/-
Growing a URL: segments added to its path, pairs added to its query. A segment is escaped on its own, so
one that holds `/` stays one segment.
-/
import HostedGit.Text.FormUrlencoded
import HostedGit.Url.Parser

namespace HostedGit.Url

/-- Drops one empty last segment, unless it is the only one. -/
def dropEmptyLast (segments : List (List Char)) : List (List Char) :=
  if 2 ≤ segments.length ∧ segments.getLast? = some [] then segments.dropLast else segments

/-- Adds a segment after the last one, or in place of the empty one of a path that is only `/`. A dot
segment adds nothing; one that is a dot segment only without its tabs and line ends is resolved. -/
def pushSegment (special : Bool) (segments : List (List Char)) (s : List Char) : List (List Char) :=
  if s = ".".toList ∨ s = "..".toList then segments
  else
    walk (if segments = [[]] then [] else segments)
      [Percent.encode (Escape.segment special) (s.filter (!isIgnored ·))]

/-- The segments of a URL with others added to them, if it has segments at all. In a file path a drive
that comes first is written with a colon, and no empty segment comes first. -/
def extendSegments (u : Url) (added : List (List Char)) : Except UrlError Url :=
  match u.path with
  | .whole _ => .error .noSegments
  | .segments list =>
    let push (list : List (List Char)) (s : List Char) :=
      let list := pushSegment (Scheme.isSpecial u.scheme) list s
      if Scheme.isFile u.scheme then dropLeadingEmpty (normalDrive list) else list
    .ok { u with path := .segments (added.foldl push (dropEmptyLast list)) }

/-- Adds pairs to the query. -/
def appendQuery (u : Url) (pairs : List (List Char × List Char)) : Url :=
  { u with query := some (pairs.foldl FormUrlencoded.append (u.query.getD [])) }

end HostedGit.Url
