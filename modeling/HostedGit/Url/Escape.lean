/-
Which characters each part of a URL holds as they are; all others are percent-encoded.
-/
import HostedGit.Text.Percent

namespace HostedGit.Url.Escape

/-- A printable ASCII character outside a list. -/
def visibleExcept (left : List Char) (c : Char) : Bool := Percent.isVisible c && !left.contains c

/-- Characters escaped in every part that has a set of its own. -/
def common : List Char := [' ', '\x22', '<', '>']

/-- What a fragment holds as it is. -/
def fragment : Char → Bool := visibleExcept (common ++ ['\x60'])

/-- What a query holds as it is; the query of a special URL escapes the apostrophe too. -/
def query (special : Bool) : Char → Bool :=
  visibleExcept (common ++ '#' :: if special then ['\x27'] else [])

/-- Characters escaped in a path. -/
def pathLeft : List Char := common ++ ['\x60', '#', '?', '\x7b', '\x7d']

/-- What a segment of a path that is being read holds as it is. -/
def path : Char → Bool := visibleExcept pathLeft

/-- What a segment holds as it is when it is added to a path: neither a separator nor `%` among them,
so that decoding gives the segment back. -/
def segment (special : Bool) : Char → Bool :=
  visibleExcept (pathLeft ++ '/' :: '%' :: if special then ['\\'] else [])

/-- What a username or password holds as it is. -/
def userinfo : Char → Bool :=
  visibleExcept (pathLeft ++ ['/', ':', ';', '=', '@', '[', '\\', ']', '^', '|'])

end HostedGit.Url.Escape
