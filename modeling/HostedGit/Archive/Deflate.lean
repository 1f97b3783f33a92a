/-
Decompression of the "deflate" format: blocks of literal octets and of references to what was written
before, in Huffman codes that are fixed or that a block brings along.

`inflate` answers what was written and, where the stream does not reach the end of its last block, why.
-/
import HostedGit.Octets

namespace HostedGit.Deflate

/-- Why a stream has no end. -/
inductive Flaw where
  /-- The octets run out. -/
  | truncated
  /-- The bits mean nothing. -/
  | corrupt
  deriving DecidableEq, Repr

/-- What is left to read, and what is written. -/
structure Progress where
  /-- The bits that are left of the octet that was begun, the next one first. -/
  bits : List Bool
  /-- The octets that were not begun. -/
  octets : Octets
  output : Array UInt8

/-- A part of the work, which may find a flaw; what it wrote before stays. -/
abbrev Step := ExceptT Flaw (StateM Progress)

/-! ## Bits -/

/-- The bits of an octet, the least one first. -/
def bitsOf (b : UInt8) : List Bool := (List.range 8).map b.toNat.testBit

/-- Reads a bit. -/
def bit : Step Bool := do
  let p ← get
  match p.bits, p.octets with
  | b :: bits, _ =>
    set { p with bits }
    return b
  | [], o :: octets =>
    set { p with bits := (bitsOf o).tail, octets }
    return o.toNat.testBit 0
  | [], [] => throw .truncated

/-- Reads a number of `n` bits, the least one first. -/
def number : Nat → Step Nat
  | 0 => return 0
  | n + 1 => do
    let b ← bit
    return b.toNat + 2 * (← number n)

/-- Passes over the rest of an octet that was begun. -/
def align : Step Unit := modify fun p => { p with bits := [] }

/-- Writes an octet. -/
def write (b : UInt8) : Step Unit := modify fun p => { p with output := p.output.push b }

/-! ## Huffman codes -/

/-- The greatest length of a code word. -/
def longestWord : Nat := 15

/-- A canonical code: words of one length are consecutive numbers, and shorter words come first. -/
structure Code where
  /-- How many words there are of each length from 1 on. -/
  counts : List Nat
  /-- The symbols in the order of their words. -/
  symbols : List Nat

namespace Code

/-- The code that gives each symbol a word of its length; length 0 stands for no word. -/
def ofLengths (lengths : List Nat) : Code where
  counts := (List.range longestWord).map fun n => lengths.count (n + 1)
  symbols := (List.range longestWord).flatMap fun n =>
    (lengths.zipIdx.filter fun p => p.1 = n + 1).map (·.2)

/-- Whether every row of bits starts with a word, and with one only. -/
def isComplete (c : Code) : Bool :=
  c.counts.zipIdx.foldl (fun n (k, i) => n + k <<< (longestWord - 1 - i)) 0 = 1 <<< longestWord

/-- Whether a code is one that symbols can be read by: a complete one, or one of at most one word. -/
def isUsable (c : Code) : Bool := c.isComplete || c.symbols.length ≤ 1

/-- Reads on in a word. `offset` is how far the bits read so far are behind the last word of their
length; `counts` and `symbols` are for the words that are longer. -/
def read (symbols : List Nat) (offset : Nat) : List Nat → Step Nat
  | [] => throw .corrupt
  | count :: counts => do
    let b ← bit
    let offset := 2 * offset + b.toNat
    if offset < count then return symbols.getD offset 0
    else read (symbols.drop count) (offset - count) counts

/-- Reads a symbol. -/
def symbol (c : Code) : Step Nat := read c.symbols 0 c.counts

end Code

/-- The two codes of a block: for literals and lengths, and for distances. -/
structure Codes where
  literals : Code
  distances : Code

/-- The codes of a block that brings none along. -/
def fixedCodes : Codes where
  literals := .ofLengths
    (List.replicate 144 8 ++ List.replicate 112 9 ++ List.replicate 24 7 ++ List.replicate 8 8)
  distances := .ofLengths (List.replicate 32 5)

/-! ## References -/

/-- The least length that a symbol stands for, and how many bits are added to it. -/
def lengthRange? (symbol : Nat) : Option (Nat × Nat) :=
  if symbol < 265 then some (symbol - 254, 0)
  else if symbol < 285 then
    let extra := (symbol - 261) / 4
    some (3 + (4 + (symbol - 265) % 4) <<< extra, extra)
  else if symbol = 285 then some (258, 0)
  else none

/-- The least distance that a symbol stands for, and how many bits are added to it. -/
def distanceRange? (symbol : Nat) : Option (Nat × Nat) :=
  if symbol < 4 then some (symbol + 1, 0)
  else if symbol < 30 then
    let extra := symbol / 2 - 1
    some (1 + (2 + symbol % 2) <<< extra, extra)
  else none

/-- Reads a number of a range. -/
def inRange : Option (Nat × Nat) → Step Nat
  | none => throw .corrupt
  | some (least, extra) => return least + (← number extra)

/-- Writes again what was written `distance` octets ago; before the first octet there are zeros. -/
def repeatOctet (output : Array UInt8) (distance : Nat) : Array UInt8 :=
  output.push (if distance ≤ output.size then output.getD (output.size - distance) 0 else 0)

/-- Writes `length` octets again, each from `distance` octets ago. -/
def copy (length distance : Nat) : Step Unit :=
  modify fun p => { p with output := Nat.repeat (repeatOctet · distance) length p.output }

/-! ## Blocks -/

/-- Reads and writes the symbols of a block up to its end. -/
def symbols (codes : Codes) : (fuel : Nat) → Step Unit
  | 0 => throw .truncated
  | fuel + 1 => do
    let s ← codes.literals.symbol
    if s = 256 then return
    if s < 256 then write s.toUInt8
    else
      let length ← inRange (lengthRange? s)
      copy length (← inRange (distanceRange? (← codes.distances.symbol)))
    symbols codes fuel

/-- Writes the next `n` octets as they are. -/
def plainOctets : (n : Nat) → Step Unit
  | 0 => return
  | n + 1 => do
    write (← number 8).toUInt8
    plainOctets n

/-- A block of octets as they are, after their number and its complement. -/
def plainBlock : Step Unit := do
  align
  let size ← number 16
  if size + (← number 16) ≠ 0xFFFF then throw .corrupt
  plainOctets size

/-- The order in which the lengths of the words for lengths are given. -/
def lengthOrder : List Nat := [16, 17, 18, 0, 8, 7, 9, 6, 10, 5, 11, 4, 12, 3, 13, 2, 14, 1, 15]

/-- Reads `n` lengths of words for lengths. -/
def shortLengths : (n : Nat) → Step (List Nat)
  | 0 => return []
  | n + 1 => do
    let length ← number 3
    return length :: (← shortLengths n)

/-- Which length a symbol repeats, and how often, given the length before. -/
def repetition (symbol : Nat) (before : Option Nat) : Step (Nat × Nat) := do
  if symbol < 16 then return (symbol, 1)
  else if symbol = 16 then
    match before with
    | none => throw .corrupt
    | some length => return (length, 3 + (← number 2))
  else if symbol = 17 then return (0, 3 + (← number 3))
  else return (0, 11 + (← number 7))

/-- Reads lengths until there are `total`; `done` holds those read, the last one first. -/
def lengths (code : Code) (total : Nat) : (fuel : Nat) → (done : List Nat) → Step (List Nat)
  | 0, done => return done.reverse
  | fuel + 1, done => do
    if done.length = total then return done.reverse
    let (length, times) ← repetition (← code.symbol) done.head?
    if total < done.length + times then throw .corrupt
    lengths code total fuel (List.replicate times length ++ done)

/-- Reads the codes that a block brings along. -/
def ownCodes : Step Codes := do
  let literals := 257 + (← number 5)
  let distances := 1 + (← number 5)
  let given ← shortLengths (4 + (← number 4))
  if 286 < literals ∨ 30 < distances then throw .corrupt
  let forLengths := Code.ofLengths
    ((List.range 19).map fun s => ((lengthOrder.zip given).lookup s).getD 0)
  if !forLengths.isComplete then throw .corrupt
  let all ← lengths forLengths (literals + distances) (literals + distances) []
  let codes : Codes := ⟨.ofLengths (all.take literals), .ofLengths (all.drop literals)⟩
  if !codes.literals.isUsable || !codes.distances.isUsable then throw .corrupt
  return codes

/-- Reads and writes blocks up to the last one. `fuel` bounds their number and that of the symbols in
each; the number of bits is enough. -/
def blocks (size : Nat) : (fuel : Nat) → Step Unit
  | 0 => throw .truncated
  | fuel + 1 => do
    let last ← bit
    match ← number 2 with
    | 0 => plainBlock
    | 1 => symbols fixedCodes size
    | 2 => symbols (← ownCodes) size
    | _ => throw .corrupt
    if last then return
    blocks size fuel

/-! ## Streams -/

/-- What a stream holds, as far as it can be read. -/
structure Inflated where
  output : Octets
  flaw : Option Flaw

/-- How many octets are handed on at a time. -/
def window : Nat := 32768

/-- What is handed on: all that was written, but of a corrupt stream only the full windows. -/
def handedOn (output : Octets) : Option Flaw → Octets
  | some .corrupt => output.take (output.length / window * window)
  | _ => output

/-- Reads a stream. What follows its last block is left alone. -/
def inflate (bs : Octets) : Inflated :=
  let bits := 8 * bs.length
  let (result, p) := (blocks bits bits).run.run ⟨[], bs, #[]⟩
  let flaw := match result with
    | .ok () => none
    | .error flaw => some flaw
  ⟨handedOn p.output.toList flaw, flaw⟩

end HostedGit.Deflate
