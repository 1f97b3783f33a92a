/-
Reading a command line. Switches that every command has may stand before or after its word; what stands
after it wins, and what neither says the environment may.
-/
import HostedGit.CommandLine.Scan

namespace HostedGit

namespace Scan

/-- The value of a slot. -/
def value? (st : Scan) (slot : Slot) : Option String := (st.found.lookup slot).bind List.head?

/-- The values of a switch. -/
def values (st : Scan) (s : Switch) : List String := (st.found.lookup (.switch s)).getD []

/-- Whether a switch is given. -/
def has (st : Scan) (s : Switch) : Bool := (st.found.lookup (.switch s)).isSome

/-- Whether everything that a level needs is given. -/
def isComplete (level : Level) (st : Scan) : Bool :=
  (Level.places level).all (fun p => (st.value? (.place p)).isSome) &&
    (Level.required level).all fun s => (st.value? (.switch s)).isSome

/-- The command that a complete scan says. -/
def toCommand (st : Scan) : CommandName → Command
  | .listRemote => .listRemote ((st.value? (.place .url)).getD "")
  | .tree =>
    .tree ((st.value? (.place .url)).getD "") ((st.value? (.switch .reference)).getD "")
      (st.values .extension)
  | .commit =>
    .commit ((st.value? (.place .url)).getD "") ((st.value? (.switch .reference)).getD "")
  | .download =>
    .download ((st.value? (.place .url)).getD "") ((st.value? (.place .destination)).getD "")
      (st.value? (.switch .reference))

end Scan

namespace Arguments

/-- Puts the words before and after a command's name together. -/
def ofScans (env : Environment) (outer inner : Scan) (name : CommandName) : Arguments :=
  let value? (s : Switch) := inner.value? (.switch s) <|> outer.value? (.switch s)
  let has (s : Switch) := inner.has s || outer.has s
  { username := value? .username <|> env.username
    password := value? .password <|> env.password
    timeout := (value? .timeout).bind Scan.number?
    insecure := has .insecure
    noProxy := has .noProxy
    baseUrl := value? .baseUrl
    command := inner.toCommand name }

/-- What is wrong with a command line that names no command. -/
def withoutCommand (env : Environment) (outer : Scan) : UsageError :=
  if outer.found.rows.isEmpty && env.username.isNone && env.password.isNone then .nothingGiven
  else .missingCommand

/-- Reads a command line. -/
def parse (env : Environment) (words : List String) : Except UsageError Arguments := do
  let (outer, command) ← (Scan.start none).run none words
  match command with
  | none => throw (withoutCommand env (← outer.settle))
  | some (name, words) =>
    let (inner, _) ← (Scan.start (some name)).run (some name) words
    let inner ← inner.settle
    if !inner.isComplete (some name) then throw .missingArgument
    return ofScans env (← outer.settle) inner name

end Arguments

end HostedGit
