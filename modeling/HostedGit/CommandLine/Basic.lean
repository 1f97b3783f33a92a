/-
What can be asked for on the command line, and the switches and places that say it.
-/
import HostedGit.Config

namespace HostedGit

/-- What to do, and with which repository. -/
inductive Command where
  | listRemote (url : String)
  | tree (url reference : String) (extensions : List String)
  | commit (url reference : String)
  | download (url destination : String) (reference : Option String)
  deriving DecidableEq, Repr

namespace Command

/-- The repository that a command is about. -/
def url : Command → String
  | listRemote url | tree url _ _ | commit url _ | download url _ _ => url

end Command

/-- The names of the commands. -/
inductive CommandName where
  | listRemote
  | tree
  | commit
  | download
  deriving DecidableEq, Repr

namespace CommandName

/-- The word that names a command. -/
def word : CommandName → String
  | listRemote => "ls-remote"
  | tree => "tree"
  | commit => "commit"
  | download => "download"

/-- All commands. -/
def all : List CommandName := [listRemote, tree, commit, download]

end CommandName

/-- A whole command line: settings for every command, and the command. -/
structure Arguments where
  username : Option String
  password : Option String
  timeout : Option UInt64
  insecure : Bool
  noProxy : Bool
  baseUrl : Option String
  command : Command
  deriving DecidableEq, Repr

/-- The settings that a command line asks for. -/
def Arguments.settings (a : Arguments) : Settings where
  cacheEnabled := some true
  requestTimeout := a.timeout.map fun n => .ofSeconds n.toNat
  acceptInvalidCerts := some a.insecure
  useEnvProxy := some !a.noProxy
  baseUrl := a.baseUrl
  userAgent := none

/-- What the environment says where the command line does not. -/
structure Environment where
  username : Option String
  password : Option String
  deriving DecidableEq, Repr

/-! ## Errors -/

/-- Why a command line is not carried out. -/
inductive UsageError where
  /-- Help is asked for. -/
  | help
  /-- The version is asked for; `command` says of which command. -/
  | version (command : Option CommandName)
  /-- Nothing is said at all. -/
  | nothingGiven
  | missingCommand
  | missingArgument
  | unknownArgument
  | unknownCommand
  | malformedNumber
  | missingValue
  | surplusValue
  | repeatedSwitch
  deriving DecidableEq, Repr

/-- Asking for help or the version is no failure; any other error ends with 2. -/
def UsageError.exitCode : UsageError → Nat
  | help | version _ => 0
  | _ => 2

/-! ## Switches and places -/

/-- What is given by a name. -/
inductive Switch where
  | username
  | password
  | timeout
  | insecure
  | noProxy
  | baseUrl
  | reference
  | extension
  | help
  | version
  deriving DecidableEq, Repr

namespace Switch

/-- The name after two hyphens. -/
def long : Switch → String
  | username => "username"
  | password => "password"
  | timeout => "timeout"
  | insecure => "insecure"
  | noProxy => "no-proxy"
  | baseUrl => "base-url"
  | reference => "ref"
  | extension => "ext"
  | help => "help"
  | version => "version"

/-- The letter after one hyphen. -/
def short? : Switch → Option Char
  | username => some 'u'
  | password => some 'p'
  | insecure => some 'k'
  | reference => some 'r'
  | extension => some 'e'
  | help => some 'h'
  | version => some 'V'
  | timeout | noProxy | baseUrl => none

/-- Whether a value goes with the switch. -/
def takesValue : Switch → Bool
  | username | password | timeout | baseUrl | reference | extension => true
  | insecure | noProxy | help | version => false

/-- Whether the switch may be given again, and may have several values at once. -/
def repeats (s : Switch) : Bool := s = extension

/-- The switches that every command has. -/
def general : List Switch := [username, password, timeout, insecure, noProxy, baseUrl, help, version]

end Switch

/-- What is given by its place. -/
inductive Place where
  | url
  | destination
  deriving DecidableEq, Repr

/-- Where a value belongs. -/
inductive Slot where
  | switch (s : Switch)
  | place (p : Place)
  deriving DecidableEq, Repr

/-- What may be given before the word of a command (`none`), or after it. -/
abbrev Level := Option CommandName

namespace Level

/-- The switches of a level. -/
def switches : Level → List Switch
  | none | some .listRemote => Switch.general
  | some .tree => [.reference, .extension] ++ Switch.general
  | some .commit | some .download => .reference :: Switch.general

/-- The places of a level, in order. -/
def places : Level → List Place
  | none => []
  | some .download => [.url, .destination]
  | some _ => [.url]

/-- The switches that must be given. -/
def required : Level → List Switch
  | some .tree | some .commit => [.reference]
  | _ => []

end Level

end HostedGit
