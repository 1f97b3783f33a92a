/-
Readers of strings, lists and records. A record is written as an object, its fields in any order among
others, or as a list of its fields in their own order. What a reader asks for and does not find is named
in the failure.
-/
import HostedGit.Json.Skip
import HostedGit.Text.Quoted

namespace HostedGit.Json

/-! ## Wrong types -/

/-- The failure at a value that is none of `expected`. -/
def failType {α : Type} (expected : String) (s : Octets) : Except Failure α := do
  let wrong (found : List Char) (left : Octets) : Except Failure α :=
    failAt (.wrongType found expected.toList) left
  match s with
  | [] => failNext .endInValue []
  | b :: rest =>
    if b = 0x6E then wrong "null".toList (← readName (octets "ull") rest).1
    else if b = 0x74 then wrong "boolean \x60true\x60".toList (← readName (octets "rue") rest).1
    else if b = 0x66 then wrong "boolean \x60false\x60".toList (← readName (octets "alse") rest).1
    else if b = 0x2D then
      let (found, left) ← describeNumber true rest
      wrong found left
    else if isDigit b then
      let (found, left) ← describeNumber false s
      wrong found left
    else if b = 0x22 then
      let (text, left) ← readText rest
      wrong ("string ".toList ++ Quoted.encode text) left.1
    else if b = 0x5B then wrong "sequence".toList s
    else if b = 0x7B then wrong "map".toList s
    else failNext .expectedValue s

/-! ## Strings -/

/-- Reads a string. -/
def readString : Reader String := fun s =>
  match skipSpace s with
  | ⟨[], _⟩ => failNext .endInValue []
  | ⟨b :: rest, h⟩ =>
    if b = 0x22 then
      match readText rest with
      | .error f => .error f
      | .ok (text, ⟨r, h'⟩) => .ok (String.ofList text, ⟨r, Nat.lt_trans h' h⟩)
    else failType "a string" (b :: rest)

/-! ## Lists -/

/-- Whether an element comes next, which it does not where the list is closed. The place after the
separator is answered. -/
def nextElement (first : Bool) (s : Octets) : Except Failure (Bool × Tail s) :=
  match skipSpace s with
  | ⟨[], _⟩ => failNext .endInList []
  | ⟨b :: rest, h⟩ =>
    if b = 0x5D then .ok (false, ⟨b :: rest, h⟩)
    else if first then .ok (true, ⟨b :: rest, h⟩)
    else if b = 0x2C then
      match skipSpace rest with
      | ⟨[], _⟩ => failNext .endInValue []
      | ⟨c :: r, h'⟩ =>
        if c = 0x5D then failNext .trailingComma (c :: r)
        else .ok (true, ⟨c :: r, Nat.le_trans h' (Nat.le_of_succ_le h)⟩)
    else failNext .expectedListEnd (b :: rest)

/-- Passes over the end of a list. -/
def closeList (s : Octets) : Except Failure (Rest s) :=
  match skipSpace s with
  | ⟨[], _⟩ => failNext .endInList []
  | ⟨b :: rest, h⟩ =>
    if b = 0x5D then .ok ⟨rest, h⟩
    else if b = 0x2C then
      let r := (skipSpace rest).1
      if r.head? = some 0x5D then failNext .trailingComma r else failNext .trailingCharacters r
    else failNext .trailingCharacters (b :: rest)

/-- Reads the elements of a list and its end. -/
def readElements {α : Type} (value : Reader α) (first : Bool) (s : Octets) :
    Except Failure (List α × Rest s) :=
  match nextElement first s with
  | .error f => .error f
  | .ok (false, ⟨r, h⟩) =>
    match closeList r with
    | .error f => .error f
    | .ok ⟨r', h'⟩ => .ok ([], ⟨r', by omega⟩)
  | .ok (true, ⟨r, h⟩) =>
    match value r with
    | .error f => .error f
    | .ok (a, ⟨r', h'⟩) =>
      match readElements value false r' with
      | .error f => .error f
      | .ok (more, ⟨r'', h''⟩) => .ok (a :: more, ⟨r'', by omega⟩)
termination_by s.length

/-- Reads a list. -/
def readList {α : Type} (value : Reader α) : Reader (List α) := fun s =>
  match skipSpace s with
  | ⟨[], _⟩ => failNext .endInValue []
  | ⟨b :: rest, h⟩ =>
    if b = 0x5B then
      match readElements value true rest with
      | .error f => .error f
      | .ok (all, ⟨r, h'⟩) => .ok (all, ⟨r, Nat.lt_trans h' h⟩)
    else failType "a sequence" (b :: rest)

/-! ## Records -/

/-- A field: its name, other names that are taken for it, and its value where it is missing, if it may
be. -/
structure Field (α : Type) where
  name : String
  aliases : List String
  missing : Option α

/-- A record whose fields hold values of one type. -/
structure Record (α : Type) where
  name : String
  fields : List (Field α)
  value : Reader α

namespace Record

variable {α : Type}

/-- The place of the field that a key names. -/
def find? (R : Record α) (key : String) : Option Nat :=
  R.fields.findIdx? fun f => f.name == key || f.aliases.contains key

/-- What a message calls the record. -/
def expected (R : Record α) : String := "struct " ++ R.name

/-- What a message calls a list of the record's fields. -/
def expectedLength (R : Record α) : String :=
  R.expected ++ " with " ++ toString R.fields.length ++
    if R.fields.length = 1 then " element" else " elements"

/-- Fills in what is missing, or answers the first field that must not be. -/
def complete : List (Field α) → List (Option α) → Except String (List α)
  | [], _ => .ok []
  | f :: fields, given => do
    match given.head?.join <|> f.missing with
    | some a => return a :: (← complete fields given.tail)
    | none => .error f.name

/-- Reads fields from a list, of which `count` are read already. -/
def readInOrder (R : Record α) (count : Nat) : List (Field α) → (s : Octets) →
    Except Failure (List α × Rest s)
  | [], s =>
    match closeList s with
    | .error f => .error f
    | .ok r => .ok ([], r)
  | field :: fields, s =>
    match nextElement (count == 0) s with
    | .error f => .error f
    | .ok (false, ⟨r, h⟩) =>
      match field.missing with
      | none =>
        match closeList r with
        | .error f => .error f
        | .ok ⟨r', _⟩ => failAt (.wrongLength count R.expectedLength) r'
      | some a =>
        match readInOrder R count fields r with
        | .error f => .error f
        | .ok (more, ⟨r', h'⟩) => .ok (a :: more, ⟨r', by omega⟩)
    | .ok (true, ⟨r, h⟩) =>
      match R.value r with
      | .error f => .error f
      | .ok (a, ⟨r', h'⟩) =>
        match readInOrder R (count + 1) fields r' with
        | .error f => .error f
        | .ok (more, ⟨r'', h''⟩) => .ok (a :: more, ⟨r'', by omega⟩)

/-- Whether a key comes next, which it does not where the object is closed. The place after the
separator is answered. -/
def nextKey (first : Bool) (s : Octets) : Except Failure (Bool × Tail s) :=
  match skipSpace s with
  | ⟨[], _⟩ => failNext .endInObject []
  | ⟨b :: rest, h⟩ =>
    if b = 0x7D then .ok (false, ⟨b :: rest, h⟩)
    else if first then
      if b = 0x22 then .ok (true, ⟨rest, Nat.le_of_lt h⟩) else failNext .keyNotString (b :: rest)
    else if b = 0x2C then
      match skipSpace rest with
      | ⟨[], _⟩ => failNext .endInValue []
      | ⟨c :: r, h'⟩ =>
        if c = 0x22 then .ok (true, ⟨r, Nat.le_of_succ_le (Nat.le_trans h' (Nat.le_of_succ_le h))⟩)
        else if c = 0x7D then failNext .trailingComma (c :: r)
        else failNext .keyNotString (c :: r)
    else failNext .expectedObjectEnd (b :: rest)

/-- Passes over the end of an object, where it comes next. -/
def closeObject (s : Octets) : Octets :=
  match (skipSpace s).1 with
  | 0x7D :: rest => rest
  | r => r

/-- Reads the members of an object and its end, onto what is given already. -/
def readMembers (R : Record α) (given : List (Option α)) (first : Bool) (s : Octets) :
    Except Failure (List α × Rest s) :=
  match nextKey first s with
  | .error f => .error f
  | .ok (false, ⟨[], _⟩) => failNext .endInObject []
  | .ok (false, ⟨_ :: r, h⟩) =>
    match complete R.fields given with
    | .error name => failAt (.missingField name) r
    | .ok all => .ok (all, ⟨r, h⟩)
  | .ok (true, ⟨r, h⟩) =>
    match readText r with
    | .error f => .error f
    | .ok (key, ⟨r, h'⟩) =>
      match R.find? (String.ofList key) with
      | none =>
        match skipColon r with
        | .error f => .error f
        | .ok ⟨r, h''⟩ =>
          match skipValue r with
          | .error f => .error f
          | .ok ⟨r, h'''⟩ =>
            match readMembers R given false r with
            | .error f => .error f
            | .ok (all, ⟨r, h''''⟩) => .ok (all, ⟨r, by omega⟩)
      | some i =>
        if (given[i]?.join).isSome then
          failAt (.duplicateField ((R.fields[i]?.map (·.name)).getD "")) (closeObject r)
        else
          match skipColon r with
          | .error f => .error f
          | .ok ⟨r, h''⟩ =>
            match R.value r with
            | .error f => .error f
            | .ok (a, ⟨r, h'''⟩) =>
              match readMembers R (given.set i (some a)) false r with
              | .error f => .error f
              | .ok (all, ⟨r, h''''⟩) => .ok (all, ⟨r, by omega⟩)
termination_by s.length

/-- Reads a record: the values of its fields, in the order of the fields. -/
def read (R : Record α) : Reader (List α) := fun s =>
  match skipSpace s with
  | ⟨[], _⟩ => failNext .endInValue []
  | ⟨b :: rest, h⟩ =>
    if b = 0x5B then
      match R.readInOrder 0 R.fields rest with
      | .error f => .error f
      | .ok (all, ⟨r, h'⟩) => .ok (all, ⟨r, Nat.lt_trans h' h⟩)
    else if b = 0x7B then
      match R.readMembers (R.fields.map fun _ => none) true rest with
      | .error f => .error f
      | .ok (all, ⟨r, h'⟩) => .ok (all, ⟨r, Nat.lt_trans h' h⟩)
    else failType R.expected (b :: rest)

end Record

/-! ## Whole texts -/

/-- Makes another value of what a reader reads. -/
def Reader.map {α β : Type} (f : α → β) (read : Reader α) : Reader β := fun s =>
  match read s with
  | .error e => .error e
  | .ok (a, r) => .ok (f a, r)

/-- Reads a text that is one value and nothing else. -/
def decode {α : Type} (read : Reader α) (body : Octets) : Except Error α :=
  match read body with
  | .error f => .error (f.locate body)
  | .ok (a, ⟨r, _⟩) =>
    match (skipSpace r).1 with
    | [] => .ok a
    | rest => .error ((⟨.trailingCharacters, rest.length - 1⟩ : Failure).locate body)

end HostedGit.Json
