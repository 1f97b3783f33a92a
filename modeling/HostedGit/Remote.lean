/-
Remotes, as far as requests can tell them: which URLs they are reached by, and how they reply to a
request after those that came before it. A reply and each part of its body come after a while, break off,
or never come.
-/
import HostedGit.Octets
import HostedGit.Time.Duration
import HostedGit.Url.Basic

namespace HostedGit

/-- A request as a remote gets it. -/
structure Request where
  method : String
  /-- Path and query. -/
  target : String
  authorization : Option String
  userAgent : String
  deriving DecidableEq, Repr

/-- How something comes over a connection. -/
inductive Coming (α : Type) where
  /-- It is there after a while. -/
  | after (delay : Duration) (value : α)
  /-- The connection breaks off after a while. -/
  | broken (delay : Duration)
  /-- It does not come. -/
  | never

/-- A body: pieces, each some time after the one before, and how the end comes after the last of them. -/
structure Body where
  pieces : List (Duration × Octets)
  ending : Coming Unit

namespace Body

/-- The octets of all pieces. -/
def octets (b : Body) : Octets := b.pieces.flatMap (·.2)

end Body

/-- What a remote replies. -/
structure Reply where
  status : Nat
  /-- Where else to ask. -/
  location : Option String
  /-- The length of the body, if it is announced. -/
  length : Option Nat
  body : Body

/-- A remote: the URLs it is reached by, and its reply to a request after earlier ones. -/
structure Remote where
  reaches : Url → Bool
  reply : List Request → Request → Coming Reply

namespace Remote

/-- A remote that cannot be reached. -/
def unreachable : Remote := ⟨fun _ => false, fun _ _ => .never⟩

/-- A remote that replies by what is asked for and by whom alone. -/
def fixed (reaches : Url → Bool) (reply : String → Option String → Coming Reply) : Remote :=
  ⟨reaches, fun _ r => reply r.target r.authorization⟩

/-- A remote that gives replies in turn, and the last one for good. -/
def scripted (reaches : Url → Bool) (replies : List (Coming Reply)) (last : Coming Reply) : Remote :=
  ⟨reaches, fun earlier _ => replies.getD earlier.length last⟩

end Remote

end HostedGit
