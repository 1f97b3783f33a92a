/-
Hiding the password of a URL, for logs and error messages. The text is not parsed as a URL: the
authority runs from the first `://` to the next `/`, `?` or `#`, its last `@` ends the userinfo, and the
first `:` of the userinfo starts the password, which is written as `***`.
-/
import HostedGit.Text.Cut

namespace HostedGit.Redaction

/-- The text up to and with the first `://`, and what follows. -/
def splitScheme? : List Char → Option (List Char × List Char)
  | [] => none
  | c :: rest =>
    if "://".toList.isPrefixOf (c :: rest) then some ("://".toList, rest.drop 2)
    else (splitScheme? rest).map fun p => (c :: p.1, p.2)

/-- The characters that an authority cannot hold. -/
def endsAuthority (c : Char) : Bool := c = '/' || c = '?' || c = '#'

/-- The text up to and with `://`, the userinfo, and what follows its `@`. -/
def cutUserinfo? (cs : List Char) : Option (List Char × List Char × List Char) :=
  match splitScheme? cs with
  | none => none
  | some (scheme, rest) =>
    match Text.cutLast? '@' (rest.takeWhile (!endsAuthority ·)) with
    | none => none
    | some (userinfo, host) => some (scheme, userinfo, host ++ rest.dropWhile (!endsAuthority ·))

/-- Writes the password as `***`; a text without one comes back unchanged. -/
def maskPassword (cs : List Char) : List Char :=
  match cutUserinfo? cs with
  | none => cs
  | some (scheme, userinfo, after) =>
    match Text.cut? ':' userinfo with
    | none => cs
    | some (user, _) => scheme ++ user ++ ":***@".toList ++ after

end HostedGit.Redaction

namespace HostedGit

/-- The URL as it may be shown: without its password. -/
def redact (url : String) : String := String.ofList (Redaction.maskPassword url.toList)

end HostedGit
