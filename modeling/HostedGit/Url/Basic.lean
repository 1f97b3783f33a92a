/-
URLs in parts, and their text. Every part is kept in its escaped form, as the text shows it. A path is a
list of segments, each of which follows a `/`; only URLs such as `mailto:x`, which nothing can be
resolved against, have a path that is not cut into segments.
-/
namespace HostedGit

/-- Why a text is no URL, or a URL is not of the kind that is needed. -/
inductive UrlError where
  | emptyHost
  | invalidPort
  | invalidDomain
  | invalidHostCharacter
  | invalidIpv4
  | invalidIpv6
  | noScheme
  | noSegments
  deriving DecidableEq, Repr

/-- How an error is worded. -/
def UrlError.message : UrlError → String
  | emptyHost => "empty host"
  | invalidPort => "invalid port number"
  | invalidDomain => "invalid international domain name"
  | invalidHostCharacter => "invalid domain character"
  | invalidIpv4 => "invalid IPv4 address"
  | invalidIpv6 => "invalid IPv6 address"
  | noScheme => "relative URL without a base"
  | noSegments => "relative URL with a cannot-be-a-base base"

/-- Who is asked: the part of a URL between `//` and the path. A missing username or password is empty,
and the port is given only where it is not the scheme's own. -/
structure Authority where
  username : List Char
  password : List Char
  host : List Char
  port : Option Nat
  deriving DecidableEq, Repr

/-- The path of a URL. -/
inductive UrlPath where
  /-- A path that is not cut into segments. -/
  | whole (text : List Char)
  /-- Segments, each of them after a `/`. -/
  | segments (list : List (List Char))
  deriving DecidableEq, Repr

/-- A URL in parts. -/
structure Url where
  scheme : List Char
  authority : Option Authority
  path : UrlPath
  query : Option (List Char)
  fragment : Option (List Char)
  deriving DecidableEq, Repr

/-! ## Schemes -/

namespace Scheme

/-- The port that a scheme implies. -/
def defaultPort? (scheme : List Char) : Option Nat :=
  if scheme = "http".toList ∨ scheme = "ws".toList then some 80
  else if scheme = "https".toList ∨ scheme = "wss".toList then some 443
  else if scheme = "ftp".toList then some 21
  else none

/-- Whether a URL of the scheme names a file of this machine or of a share. -/
def isFile (scheme : List Char) : Bool := scheme = "file".toList

/-- Whether a scheme has a hierarchy of its own: a host, a path that starts with `/`, and `\` read as
`/`. -/
def isSpecial (scheme : List Char) : Bool := (defaultPort? scheme).isSome || isFile scheme

/-- Whether a scheme is one that requests are made by. -/
def isHttp (scheme : List Char) : Bool := scheme = "http".toList || scheme = "https".toList

end Scheme

/-! ## Text -/

namespace Authority

/-- Username and password as they stand before the host, with the `@`. -/
def userinfoText (a : Authority) : List Char :=
  let user := if a.password.isEmpty then a.username else a.username ++ ':' :: a.password
  if user.isEmpty then [] else user ++ ['@']

/-- Host and port. -/
def hostText (a : Authority) : List Char :=
  a.host ++ (a.port.map fun p => ':' :: Nat.toDigits 10 p).getD []

/-- The whole authority. -/
def text (a : Authority) : List Char := a.userinfoText ++ a.hostText

end Authority

namespace UrlPath

/-- The text of a path. -/
def text : UrlPath → List Char
  | whole t => t
  | segments list => list.flatMap ('/' :: ·)

end UrlPath

namespace Url

/-- The text between scheme and path. Where there is no authority, a path that starts with `//` gets a
`/.` before it, so that it is not read as one. -/
def authorityText (u : Url) : List Char :=
  match u.authority with
  | some a => "//".toList ++ a.text
  | none =>
    match u.path with
    | .segments ([] :: _ :: _) => "/.".toList
    | _ => []

/-- The URL up to its path. -/
def originText (u : Url) : List Char := u.scheme ++ ':' :: u.authorityText

/-- Path and query, as a request sends them. -/
def target (u : Url) : List Char := u.path.text ++ (u.query.map ('?' :: ·)).getD []

/-- The whole text of a URL. -/
def text (u : Url) : List Char :=
  u.originText ++ u.target ++ (u.fragment.map ('#' :: ·)).getD []

/-- The URL as it is shown. -/
def toString (u : Url) : String := String.ofList u.text

end Url

end HostedGit
