/-
Sorting the words of a command line into switches and places. A value is checked only when the word
after it has been understood, so what is wrong with a later word can win over what is wrong with an
earlier value.
-/
import HostedGit.CommandLine.Basic
import HostedGit.Table

namespace HostedGit

/-! ## Words -/

/-- The forms that a word can have. -/
inductive Word where
  /-- `--`: only places follow. -/
  | escape
  /-- `--name` or `--name=value`. -/
  | long (name : List Char) (value : Option (List Char))
  /-- `-abc`. -/
  | short (letters : List Char)
  /-- Anything else, a lone hyphen among it. -/
  | plain
  deriving DecidableEq, Repr

/-- The form of a word. -/
def Word.ofText : List Char → Word
  | ['-', '-'] => escape
  | '-' :: '-' :: rest =>
    let value := rest.dropWhile (· ≠ '=')
    long (rest.takeWhile (· ≠ '=')) (if value.isEmpty then none else some (value.drop 1))
  | '-' :: c :: rest => short (c :: rest)
  | _ => plain

/-! ## What has been found -/

/-- The words of a level so far. -/
structure Scan where
  /-- The values that are settled. -/
  found : Table Slot (List String)
  /-- A value that is still to be settled. -/
  pending : Option (Slot × List String)
  /-- Whether the next plain word is a value of the pending switch. -/
  awaiting : Bool
  /-- The places that are still free. -/
  free : List Place

namespace Scan

/-- No words yet. -/
def start (level : Level) : Scan := ⟨.empty, none, false, level.places⟩

/-- Reads a number of seconds: digits, with a plus sign or without, that 64 bits hold. -/
def number? (text : String) : Option UInt64 := do
  let digits := match text.toList with
    | '+' :: rest => rest
    | cs => cs
  if digits.isEmpty then none
  let n ← Digits.number? 10 digits
  if n < UInt64.size then some (UInt64.ofNat n) else none

/-- What is wrong with a value. -/
def fault? : Slot → String → Option UsageError
  | .switch .timeout, text => if (number? text).isNone then some .malformedNumber else none
  | .place .destination, text => if text.isEmpty then some .missingValue else none
  | _, _ => none

/-- Whether a slot has to have a value. -/
def needsValue : Slot → Bool
  | .switch s => s.takesValue
  | .place _ => true

/-- Whether a slot may be filled again. -/
def repeats : Slot → Bool
  | .switch s => s.repeats
  | .place _ => false

/-- Settles the values of a slot: that there is one, that the slot is free, and that they are sound. -/
def put (st : Scan) (slot : Slot) (values : List String) : Except UsageError Scan :=
  if needsValue slot && values.isEmpty then .error .missingValue
  else
    let before := st.found.lookup slot
    if before.isSome && !repeats slot then .error .repeatedSwitch
    else
      match values.findSome? (fault? slot) with
      | some e => .error e
      | none => .ok { st with found := st.found.insert slot (before.getD [] ++ values) }

/-- Settles what is pending. -/
def settle (st : Scan) : Except UsageError Scan :=
  match st.pending with
  | none => .ok st
  | some (slot, values) => ({ st with pending := none, awaiting := false } : Scan).put slot values

/-- The switch of a level with a name. -/
def findLong? (level : Level) (name : List Char) : Option Switch :=
  (Level.switches level).find? fun s => s.long.toList = name

/-- The switch of a level with a letter. -/
def findShort? (level : Level) (letter : Char) : Option Switch :=
  (Level.switches level).find? fun s => s.short? = some letter

/-- Takes a switch that has no value. -/
def putFlag (level : Level) (st : Scan) (s : Switch) : Except UsageError Scan := do
  let st ← st.settle
  match s with
  | .help => throw .help
  | .version => throw (.version level)
  | s => ({ st with awaiting := false } : Scan).put (.switch s) []

/-- Takes a switch with a value in the same word, or one whose value is still to come. -/
def putValued (st : Scan) (s : Switch) (value : Option (List Char)) : Except UsageError Scan := do
  let st ← st.settle
  match value with
  | some v => ({ st with awaiting := false } : Scan).put (.switch s) [String.ofList v]
  | none => return { st with pending := some (.switch s, []), awaiting := true }

/-- Takes `--name` or `--name=value`. -/
def putLong (level : Level) (st : Scan) (name : List Char) (value : Option (List Char)) :
    Except UsageError Scan :=
  match findLong? level name with
  | none => .error .unknownArgument
  | some s =>
    if s.takesValue then st.putValued s value
    else if value.isSome then .error .surplusValue
    else st.putFlag level s

/-- Takes letters after one hyphen: switches without a value, and at the end perhaps one whose value is
the rest of the word. -/
def putLetters (level : Level) (st : Scan) : List Char → Except UsageError Scan
  | [] => .ok st
  | c :: rest =>
    match findShort? level c with
    | none => .error .unknownArgument
    | some s =>
      if s.takesValue then
        st.putValued s (match rest with
          | [] => none
          | '=' :: value => some value
          | value => some value)
      else do putLetters level (← st.putFlag level s) rest

/-- Takes a word for a place. Before any command there are none: the word should be a command. -/
def putPlace (level : Level) (st : Scan) (word : String) : Except UsageError Scan :=
  match st.free with
  | p :: free => do
    let st ← st.settle
    return { st with pending := some (.place p, [word]), awaiting := false, free }
  | [] => .error (if level = none then .unknownCommand else .unknownArgument)

/-- Takes a plain word: a value that is awaited, or one for a place. -/
def putPlain (level : Level) (st : Scan) (word : String) : Except UsageError Scan :=
  match st.awaiting, st.pending with
  | true, some (.switch s, values) =>
    .ok { st with pending := some (.switch s, values ++ [word]), awaiting := s.repeats }
  | _, _ => st.putPlace level word

/-- The command that a word names. -/
def command? (word : String) : Option CommandName := CommandName.all.find? fun c => c.word = word

/-- The word that asks for help as if it were a command. -/
def helpWord : String := "help"

/-- Takes the words after `--`. -/
def putPlaces (level : Level) (st : Scan) : List String → Except UsageError Scan
  | [] => .ok st
  | word :: rest =>
    if level = none ∧ (word = helpWord ∨ (command? word).isSome) then .error .unknownArgument
    else do putPlaces level (← st.putPlace level word) rest

/-- What follows `help`: at most the name of a command. -/
def helpOn : List String → UsageError
  | [] => .help
  | [word] => if word = helpWord ∨ (command? word).isSome then .help else .unknownCommand
  | _ => .unknownCommand

/-- Takes the words of a level. A command ends it, and is answered with the words after it. -/
def run (level : Level) (st : Scan) : List String →
    Except UsageError (Scan × Option (CommandName × List String))
  | [] => .ok (st, none)
  | word :: rest =>
    let open' := level = none ∧ !st.awaiting
    if open' ∧ word = helpWord then .error (helpOn rest)
    else
      match if open' then command? word else none with
      | some c => .ok (st, some (c, rest))
      | none =>
        match Word.ofText word.toList with
        | .escape => do return (← putPlaces level st rest, none)
        | .long name value => do run level (← st.putLong level name value) rest
        | .short letters => do run level (← st.putLetters level letters) rest
        | .plain => do run level (← st.putPlain level word) rest

end Scan

end HostedGit
