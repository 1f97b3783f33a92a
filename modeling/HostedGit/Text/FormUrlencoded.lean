/-
The `application/x-www-form-urlencoded` form of a list of pairs: `name=value`, joined by `&`, with a
space written as `+`.
-/
import HostedGit.Text.Percent

namespace HostedGit.FormUrlencoded

/-- Letters, digits, `*`, `-`, `.` and `_` stay as they are. -/
def isSafe (c : Char) : Bool := c.isAlphanum || ['*', '-', '.', '_'].contains c

/-- One name or value: a space becomes `+`, and every unsafe octet is escaped. -/
def encodeText (cs : List Char) : List Char :=
  cs.flatMap fun c => if c = ' ' then ['+'] else Percent.encode isSafe [c]

/-- One pair as `name=value`. -/
def encodePair (p : List Char × List Char) : List Char := encodeText p.1 ++ '=' :: encodeText p.2

/-- Appends a pair to a query, after `&` unless the query is empty. -/
def append (query : List Char) (p : List Char × List Char) : List Char :=
  if query.isEmpty then encodePair p else query ++ '&' :: encodePair p

/-- One name or value read back. -/
def decodeText (cs : List Char) : List Char :=
  Percent.decode (cs.map fun c => if c = '+' then ' ' else c)

/-- The pair that a piece between two `&` stands for; what follows its first `=` is the value. -/
def decodePair (cs : List Char) : List Char × List Char :=
  (decodeText (cs.takeWhile (· ≠ '=')), decodeText ((cs.dropWhile (· ≠ '=')).drop 1))

/-- The pairs of a query, empty pieces left out. -/
def decode (query : List Char) : List (List Char × List Char) :=
  ((query.splitOn '&').filter (!·.isEmpty)).map decodePair

end HostedGit.FormUrlencoded
