/-
Credentials for a remote, which of two pairs a call uses, and how a pair is shown without giving its
password away.
-/
import HostedGit.Text.Quoted

namespace HostedGit

/-- A username and a password; a token may come as either. -/
structure Credentials where
  username : String
  password : String
  deriving DecidableEq, Repr, Inhabited

namespace Credentials

/-- No credentials at all. -/
def blank : Credentials := ⟨"", ""⟩

/-- Neither a username nor a password is given. -/
def isEmpty (c : Credentials) : Bool := c.username.isEmpty && c.password.isEmpty

/-- The pair given with the call, else the pair embedded in the URL, else none. A pair counts as given
when either text is non-empty, and it is taken whole. -/
def select (call embedded : Credentials) : Option Credentials :=
  if !call.isEmpty then some call else if !embedded.isEmpty then some embedded else none

/-- How a pair is shown: the username, and whether there is a password. -/
def describe (c : Credentials) : String :=
  "Credentials \x7b username: " ++ String.ofList (Quoted.encode c.username.toList) ++
    ", password: " ++ (if c.password.isEmpty then "\"\"" else "\"<redacted>\"") ++ " \x7d"

end Credentials

end HostedGit
