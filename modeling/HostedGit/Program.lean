/-
The command line program as a function: what it prints and ends with, given its words, its environment
and everything that calls touch.
-/
import HostedGit.CommandLine.Parser
import HostedGit.Resolver
import HostedGit.Service

namespace HostedGit

/-- How a run ends: the exit code, and what is printed. -/
structure Outcome where
  exitCode : Nat
  output : String
  errors : String
  deriving DecidableEq, Repr

namespace Program

/-- The program's name. -/
def name : String := "repofetch"

/-- The program's version. -/
def version : String := "0.1.0"

/-! ## What is printed -/

/-- The program's name, or that of one of its commands. -/
def nameOf : Option CommandName → String
  | none => name
  | some c => name ++ "-" ++ c.word

/-- How the program is called. -/
def usage : String := "Usage: " ++ name ++ " [OPTIONS] <COMMAND>\n"

/-- The end of a run whose command line is not carried out. -/
def ofUsageError : UsageError → Outcome
  | .help => ⟨UsageError.help.exitCode, usage, ""⟩
  | .version c => ⟨(UsageError.version c).exitCode, nameOf c ++ " " ++ version ++ "\n", ""⟩
  | e => ⟨e.exitCode, "", usage⟩

/-- The end of a run that failed. -/
def ofError : Error → Outcome
  | .cancelled => ⟨130, "", "\nOperation cancelled.\n"⟩
  | e => ⟨1, "", "Error: " ++ e.message ++ "\n"⟩

/-- Each text on a line of its own. -/
def lines (texts : List String) : String := String.join (texts.map (· ++ "\n"))

/-- The lines of an answer. -/
def linesOf : (call : Call) → call.Answer → List String
  | .listRemote _, names => names
  | .listTree _ _, paths => paths
  | .latestCommit _, commit => [commit]
  | .download _ _, _ => []
  | .removeCache _, _ => []

/-! ## What is done -/

/-- The credentials of a command line; what is not given is empty. -/
def credentials (a : Arguments) : Credentials := ⟨a.username.getD "", a.password.getD ""⟩

/-- The call that a command line asks for. -/
def callOf (a : Arguments) : Call :=
  match a.command with
  | .listRemote url => .listRemote ⟨url, "", credentials a⟩
  | .tree url reference extensions => .listTree ⟨url, reference, credentials a⟩ extensions
  | .commit url reference => .latestCommit ⟨url, reference, credentials a⟩
  | .download url destination reference => .download ⟨url, reference.getD "", credentials a⟩ destination

/-- The resolver for a configuration: the hosting service, and nothing else. -/
def resolver (c : Config) : Action Session (Resolver Session) := do
  return Resolver.empty.register (← Service.ofConfig c Extract.archive false).toProvider

/-- What the program can be interrupted by. -/
def token : Token := ⟨0⟩

/-- Carries out a command line. -/
def perform (a : Arguments) : Action Session (List String) := do
  match a.settings.build with
  | .error e => throw (.config e)
  | .ok c =>
    let call := callOf a
    return linesOf call (← (← resolver c).perform call (.ofToken token))

/-- Runs the program. -/
def run (env : Environment) (words : List String) : StateM Session Outcome :=
  match Arguments.parse env words with
  | .error e => return ofUsageError e
  | .ok a => do
    match ← (perform a).run with
    | .ok texts => return ⟨0, lines texts, ""⟩
    | .error e => return ofError e

end Program

end HostedGit
