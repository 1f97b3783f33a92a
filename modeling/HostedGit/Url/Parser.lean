/-
Reading URLs. A text is cleaned of surrounding blanks and of tabs and line ends, cut into its parts, and
each part is escaped. Dot segments are resolved while the path is read, so no parsed path holds one.
-/
import HostedGit.Text.Cut
import HostedGit.Url.Escape
import HostedGit.Url.Host

namespace HostedGit.Url

/-! ## Cleaning and cutting -/

/-- Blanks and controls, which may surround a URL. -/
def isBlank (c : Char) : Bool := c.toNat ≤ 0x20

/-- Tabs and line ends, which count for nothing inside a URL. -/
def isIgnored (c : Char) : Bool := c = '\t' || c = '\n' || c = '\r'

/-- The characters of a text that count. -/
def clean (cs : List Char) : List Char :=
  (((cs.dropWhile isBlank).reverse.dropWhile isBlank).reverse).filter (!isIgnored ·)

/-- A slash, or a backslash where it means the same. -/
def isSlash (special : Bool) (c : Char) : Bool := c = '/' || (special && c = '\\')

/-- A character that may follow the first one of a scheme. -/
def isSchemeChar (c : Char) : Bool := c.isAlphanum || c = '+' || c = '-' || c = '.'

/-- The scheme in lower case, and what follows its `:`. -/
def scheme? (cs : List Char) : Option (List Char × List Char) := do
  let (name, rest) ← Text.cut? ':' cs
  let first ← name.head?
  if first.isAlpha && name.all isSchemeChar then some (name.map Char.toLower, rest) else none

/-- A text before a mark, and what follows it if the mark is there. -/
def cutTail (mark : Char) (cs : List Char) : List Char × Option (List Char) :=
  match Text.cut? mark cs with
  | some (before, after) => (before, some after)
  | none => (cs, none)

/-- Path, query and fragment, not yet escaped. -/
structure Tail where
  path : List Char
  query : Option (List Char)
  fragment : Option (List Char)

/-- Cuts what follows the authority. -/
def Tail.ofText (cs : List Char) : Tail :=
  let (main, fragment) := cutTail '#' cs
  let (path, query) := cutTail '?' main
  ⟨path, query, fragment⟩

/-- The escaped query. -/
def Tail.escapedQuery (t : Tail) (special : Bool) : Option (List Char) :=
  t.query.map (Percent.encode (Escape.query special))

/-- The escaped fragment. -/
def Tail.escapedFragment (t : Tail) : Option (List Char) := t.fragment.map (Percent.encode Escape.fragment)

/-! ## Paths -/

/-- A segment that stands for its own directory. -/
def isSingleDot (segment : List Char) : Bool :=
  [".".toList, "%2e".toList].contains (segment.map Char.toLower)

/-- A segment that stands for the directory above. -/
def isDoubleDot (segment : List Char) : Bool :=
  ["..".toList, ".%2e".toList, "%2e.".toList, "%2e%2e".toList].contains (segment.map Char.toLower)

/-- A letter and a colon or bar: the name of a drive. -/
def isDrive : List Char → Bool
  | [c, d] => c.isAlpha && (d = ':' || d = '|')
  | _ => false

/-- The directory above; a drive has none. -/
def above (done : List (List Char)) : List (List Char) :=
  if isDrive (done.getLastD []) then done else done.dropLast

/-- Walks along segments from a directory. A dot segment at the end leaves the directory itself, which
an empty last segment says. -/
def walk (done : List (List Char)) : List (List Char) → List (List Char)
  | [] => done
  | s :: rest =>
    let last : List (List Char) := if rest.isEmpty then [[]] else []
    if isDoubleDot s then walk (above done ++ last) rest
    else if isSingleDot s then walk (done ++ last) rest
    else walk (done ++ [s]) rest

/-- The escaped segments of a path text without its first slash. -/
def pieces (special : Bool) (path : List Char) : List (List Char) :=
  (path.splitOnP (isSlash special)).map (Percent.encode Escape.path)

/-- The segments of a path that starts at the root, with or without a first slash. -/
def rootedPath (special : Bool) (path : List Char) : List (List Char) :=
  match path with
  | c :: rest => walk [] (pieces special (if isSlash special c then rest else c :: rest))
  | [] => if special then [[]] else []

/-- Drops the empty segments a path starts with, all but the last segment. -/
def dropLeadingEmpty : List (List Char) → List (List Char)
  | [] :: s :: rest => dropLeadingEmpty (s :: rest)
  | list => list

/-- Writes the drive that a file path starts with as a letter and a colon. -/
def normalDrive : List (List Char) → List (List Char)
  | [c, d] :: rest => (if isDrive [c, d] then [c, ':'] else [c, d]) :: rest
  | list => list

/-- The segments of a file path. -/
def filePath (path : List Char) : List (List Char) :=
  dropLeadingEmpty (walk [] (normalDrive (dropLeadingEmpty (pieces true path))))

/-- A path whose first segment is a drive. -/
def startsWithDrive (segments : List (List Char)) : Bool := (segments.head?.map isDrive).getD false

/-! ## Authorities -/

/-- The characters that an authority cannot hold. -/
def endsAuthority (special : Bool) (c : Char) : Bool := isSlash special c || c = '?' || c = '#'

/-- Cuts the host off what may follow it: everything up to a `:` outside brackets. -/
def cutHost (inside : Bool) : List Char → List Char × List Char
  | [] => ([], [])
  | c :: rest =>
    if c = ':' && !inside then ([], c :: rest)
    else
      let r := cutHost (c = '[' || (inside && c ≠ ']')) rest
      (c :: r.1, r.2)

/-- Reads digits after a `:`; the scheme's own port and an empty one are left out. A backslash may end
the digits. Answers what is left, too. -/
def readPort (scheme : List Char) : List Char → Except UrlError (Option Nat × List Char)
  | ':' :: rest =>
    let digits := rest.takeWhile Char.isDigit
    let after := rest.dropWhile Char.isDigit
    let n := (Digits.number? 10 digits).getD 0
    if 0xFFFF < n || !(after.isEmpty || after.head? = some '\\') then .error .invalidPort
    else .ok (if digits.isEmpty || Scheme.defaultPort? scheme = some n then none else some n, after)
  | after => .ok (none, after)

/-- Reads username and password, escaped. -/
def readUserinfo (cs : List Char) : List Char × List Char :=
  let (user, password) := cutTail ':' cs
  (Percent.encode Escape.userinfo user, Percent.encode Escape.userinfo (password.getD []))

/-- Reads host and port. Answers what is left, too. -/
def readPlace (scheme place : List Char) : Except UrlError (List Char × Option Nat × List Char) := do
  let special := Scheme.isSpecial scheme
  let (hostText, afterHost) := cutHost false place
  if special && hostText.isEmpty then throw .emptyHost
  let host ← if special then Host.parse hostText else Host.parsePlain hostText
  if host.isEmpty && !afterHost.isEmpty then throw .emptyHost
  let (port, after) ← readPort scheme afterHost
  return (host, port, after)

/-- Cuts the userinfo, if there is one, off host and port. -/
def cutUserinfo (text : List Char) : Option (List Char) × List Char :=
  match Text.cutLast? '@' text with
  | some (userinfo, place) => (some userinfo, place)
  | none => (none, text)

/-- Reads what stands between `//` and the path. Answers what is left, too. -/
def readAuthority (scheme cs : List Char) : Except UrlError (Authority × List Char) :=
  let special := Scheme.isSpecial scheme
  let rest := cs.dropWhile (!endsAuthority special ·)
  let (userinfo, place) := cutUserinfo (cs.takeWhile (!endsAuthority special ·))
  let (username, password) := readUserinfo (userinfo.getD [])
  if userinfo = some [] && place.isEmpty && !rest.isEmpty then .error .emptyHost
  else
    match readPlace scheme place with
    | .error e => .error e
    | .ok (host, port, after) =>
      if host.isEmpty && !(username.isEmpty && password.isEmpty) then .error .emptyHost
      else .ok (⟨username, password, host, port⟩, after ++ rest)

/-! ## Whole URLs -/

/-- Reads what follows `scheme://`. -/
def readAfterSlashes (scheme cs : List Char) : Except UrlError Url := do
  let special := Scheme.isSpecial scheme
  let (authority, rest) ← readAuthority scheme cs
  let tail := Tail.ofText rest
  return ⟨scheme, some authority, .segments (rootedPath special tail.path),
    tail.escapedQuery special, tail.escapedFragment⟩

/-- Reads what follows `file:`. -/
def readFile (cs : List Char) : Except UrlError Url := do
  let (hostText, rest) := match cs with
    | a :: b :: rest =>
      let host := rest.takeWhile (!endsAuthority true ·)
      if isSlash true a && isSlash true b && !isDrive host then
        (host, rest.dropWhile (!endsAuthority true ·))
      else ([], cs)
    | _ => ([], cs)
  let host ← if hostText.isEmpty then pure [] else Host.parse hostText
  let tail := Tail.ofText rest
  let path := filePath tail.path
  let host := if host = "localhost".toList || startsWithDrive path then [] else host
  return ⟨"file".toList, some ⟨[], [], host, none⟩, .segments path,
    tail.escapedQuery true, tail.escapedFragment⟩

/-- Reads what follows the scheme. -/
def readAfterScheme (scheme rest : List Char) : Except UrlError Url :=
  if Scheme.isFile scheme then readFile rest
  else if Scheme.isSpecial scheme then readAfterSlashes scheme (rest.dropWhile (isSlash true))
  else
    match rest with
    | '/' :: '/' :: rest => readAfterSlashes scheme rest
    | _ =>
      let tail := Tail.ofText rest
      let path := match tail.path with
        | '/' :: path => .segments (rootedPath false ('/' :: path))
        | path => .whole (Percent.encode Percent.isVisible path)
      .ok ⟨scheme, none, path, tail.escapedQuery false, tail.escapedFragment⟩

/-- Reads a URL. -/
def parse (text : List Char) : Except UrlError Url :=
  match scheme? (clean text) with
  | some (scheme, rest) => readAfterScheme scheme rest
  | none => .error .noScheme

/-! ## References -/

/-- The segments of a URL. -/
def segments (u : Url) : List (List Char) :=
  match u.path with
  | .segments list => list
  | .whole _ => []

/-- Reads what stands in a reference without a scheme, relative to a URL that has a host. -/
def readRelative (base : Url) (cs : List Char) : Except UrlError Url :=
  let special := Scheme.isSpecial base.scheme
  let slashes := (cs.takeWhile (isSlash special)).length
  let tail := Tail.ofText cs
  if 2 ≤ slashes then readAfterSlashes base.scheme (cs.dropWhile (isSlash special))
  else if slashes = 1 then
    .ok { base with
      path := .segments (rootedPath special tail.path)
      query := tail.escapedQuery special
      fragment := tail.escapedFragment }
  else if tail.path.isEmpty then
    .ok { base with
      query := if tail.query.isSome then tail.escapedQuery special else base.query
      fragment := tail.escapedFragment }
  else
    .ok { base with
      path := .segments (walk base.segments.dropLast (pieces special tail.path))
      query := tail.escapedQuery special
      fragment := tail.escapedFragment }

/-- Reads a reference relative to a URL that has a host. A scheme that only repeats the URL's own says
nothing, unless two slashes follow it. -/
def resolve (base : Url) (reference : List Char) : Except UrlError Url :=
  match scheme? (clean reference) with
  | some (scheme, rest) =>
    if scheme = base.scheme && (rest.takeWhile (isSlash (Scheme.isSpecial scheme))).length < 2 then
      readRelative base rest
    else readAfterScheme scheme rest
  | none => readRelative base (clean reference)

end HostedGit.Url
