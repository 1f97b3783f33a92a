/-
Hosts: IPv4 addresses in their many spellings, IPv6 addresses, domain names, and the uninterpreted hosts
of schemes that have no rules for them. `parse` and `parsePlain` answer the host as a URL shows it.
-/
import HostedGit.Text.Percent
import HostedGit.Url.Basic
import HostedGit.Url.Domain

namespace HostedGit.Host

/-! ## IPv4 -/

namespace Ipv4

/-- A part of an address: hexadecimal after `0x`, octal after `0`, decimal otherwise. -/
def part? : List Char → Option Nat
  | [] => none
  | '0' :: 'x' :: rest => Digits.number? 16 rest
  | '0' :: 'X' :: rest => Digits.number? 16 rest
  | '0' :: c :: rest => Digits.number? 8 (c :: rest)
  | cs => Digits.number? 10 cs

/-- The parts of a host, one empty last part left out. -/
def parts (host : List Char) : List (List Char) :=
  let all := host.splitOn '.'
  if all.getLast? = some [] then all.dropLast else all

/-- Whether a host has to be read as an address: its last part is a number. -/
def applies (host : List Char) : Bool :=
  match (parts host).getLast? with
  | none => false
  | some last => (!last.isEmpty && last.all Char.isDigit) || (part? last).isSome

/-- The address that numbers stand for: the last one fills the octets that the others leave. -/
def ofNumbers? (numbers : List Nat) : Option Nat := do
  let last ← numbers.getLast?
  let first := numbers.dropLast
  if 4 < numbers.length || first.any (255 < ·) || 1 <<< (8 * (4 - first.length)) ≤ last then none
  else some (first.zipIdx.foldl (fun sum (n, i) => sum + n <<< (8 * (3 - i))) last)

/-- An address as four decimal octets. -/
def text (n : Nat) : List Char :=
  ".".toList.intercalate ([n / 0x1000000, n / 0x10000 % 256, n / 256 % 256, n % 256].map
    (Nat.toDigits 10))

/-- Reads an address in any of its spellings. -/
def parse? (host : List Char) : Option (List Char) := do
  let numbers ← (parts host).mapM part?
  return text (← ofNumbers? numbers)

end Ipv4

/-! ## IPv6 -/

namespace Ipv6

/-- A group of one to four hexadecimal digits. -/
def group? (cs : List Char) : Option Nat :=
  if 1 ≤ cs.length ∧ cs.length ≤ 4 then Digits.number? 16 cs else none

/-- An octet in decimal, without a leading zero. -/
def octet? (cs : List Char) : Option Nat := do
  let n ← Digits.number? 10 cs
  if n ≤ 255 ∧ Nat.toDigits 10 n = cs then some n else none

/-- An IPv4 address written for the last two groups. -/
def embedded? (cs : List Char) : Option (List Nat) := do
  match ← (cs.splitOn '.').mapM octet? with
  | [a, b, c, d] => some [a * 256 + b, c * 256 + d]
  | _ => none

/-- The groups of a text cut at `:`, the last of which may be an IPv4 address if `atEnd`. -/
def groups? (atEnd : Bool) (cs : List Char) : Option (List Nat) :=
  if cs.isEmpty then some []
  else
    let pieces := cs.splitOn ':'
    let last := pieces.getLastD []
    if atEnd && last.contains '.' then do
      return (← pieces.dropLast.mapM group?) ++ (← embedded? last)
    else pieces.mapM group?

/-- What stands before and after the first `::`. -/
def cutGap? : List Char → Option (List Char × List Char)
  | ':' :: ':' :: rest => some ([], rest)
  | c :: rest => (cutGap? rest).map fun p => (c :: p.1, p.2)
  | [] => none

/-- The eight groups of an address; `::` stands for one or more groups of zeros. -/
def parseGroups? (cs : List Char) : Option (List Nat) :=
  match cutGap? cs with
  | none => do
    let all ← groups? true cs
    if all.length = 8 then some all else none
  | some (before, after) => do
    let left ← groups? false before
    let right ← groups? true after
    let given := left.length + right.length
    if given < 8 then some (left ++ List.replicate (8 - given) 0 ++ right) else none

/-- How many zeros a list starts with. -/
def zeros (groups : List Nat) : Nat := (groups.takeWhile (· = 0)).length

/-- Where the first of the longest runs of at least two zeros starts, and how long it is. -/
def longestRun (groups : List Nat) : Nat × Nat :=
  (List.range groups.length).foldl (fun best i =>
    let n := zeros (groups.drop i)
    if 2 ≤ n ∧ best.2 < n then (i, n) else best) (0, 0)

/-- The shortest spelling, in brackets. -/
def text (groups : List Nat) : List Char :=
  let join (gs : List Nat) := ":".toList.intercalate (gs.map (Nat.toDigits 16))
  let (start, size) := longestRun groups
  let inner :=
    if size = 0 then join groups
    else join (groups.take start) ++ "::".toList ++ join (groups.drop (start + size))
  '[' :: inner ++ [']']

/-- Reads an address between brackets. -/
def parse (host : List Char) : Except UrlError (List Char) :=
  match host with
  | '[' :: rest =>
    if rest.getLast? = some ']' then
      match parseGroups? rest.dropLast with
      | some groups => .ok (text groups)
      | none => .error .invalidIpv6
    else .error .invalidIpv6
  | _ => .error .invalidIpv6

end Ipv6

/-! ## Hosts -/

/-- Reads the host of a special URL: an address, or a domain name. -/
def parse (host : List Char) : Except UrlError (List Char) :=
  if host.head? = some '[' then Ipv6.parse host
  else
    match (Utf8.decode? (Percent.decodeBytes host)).bind Domain.toAscii? with
    | none => .error .invalidDomain
    | some [] => .error .emptyHost
    | some name =>
      if Ipv4.applies name then
        match Ipv4.parse? name with
        | some address => .ok address
        | none => .error .invalidIpv4
      else .ok name

/-- The characters that no uninterpreted host holds. -/
def plainForbidden : List Char :=
  ['\x00', '\t', '\n', '\r', ' ', '#', '/', ':', '<', '>', '?', '@', '[', '\\', ']', '^', '|']

/-- Reads the host of any other URL: an IPv6 address, or any characters but a few. -/
def parsePlain (host : List Char) : Except UrlError (List Char) :=
  if host.head? = some '[' then Ipv6.parse host
  else if host.any plainForbidden.contains then .error .invalidHostCharacter
  else .ok (Percent.encode Percent.isVisible host)

end HostedGit.Host
