/-
What can be asked about a repository, and what answers. Providers are values that work on a state of any
type, so that one provider can hand a call on to others.
-/
import HostedGit.CallContext

namespace HostedGit

/-! ## Calls -/

/-- What a call is about: a repository, a version of it, and the credentials that come with the call. An
empty reference is the default branch. -/
structure Target where
  url : String
  reference : String
  credentials : Credentials
  deriving DecidableEq, Repr

/-- A question about a repository, or something to do with it. -/
inductive Call where
  /-- Which references there are. -/
  | listRemote (target : Target)
  /-- Which paths there are, of those that end in one of the extensions. -/
  | listTree (target : Target) (extensions : List String)
  /-- Which commit the reference points at. -/
  | latestCommit (target : Target)
  /-- Put the content into a directory. -/
  | download (target : Target) (destination : String)
  /-- Forget what is remembered. -/
  | removeCache (target : Target)
  deriving DecidableEq, Repr

namespace Call

/-- What a call is about. -/
def target : Call → Target
  | listRemote t | listTree t _ | latestCommit t | download t _ | removeCache t => t

/-- The type of a call's answer. -/
def Answer : Call → Type
  | listRemote _ => List String
  | listTree _ _ => List String
  | latestCommit _ => String
  | download _ _ => Unit
  | removeCache _ => Unit

end Call

/-! ## Journals -/

/-- How much a record matters. -/
inductive LogLevel where
  | debug
  | info
  | warn
  deriving DecidableEq, Repr

/-- A record of something that happened. -/
structure LogRecord where
  level : LogLevel
  text : String
  deriving DecidableEq, Repr

/-- A state that takes records. -/
class Journal (σ : Type) where
  add : LogRecord → σ → σ

/-! ## Providers -/

/-- Work that may fail, on a state; what it changed before it failed stays. -/
abbrev Action (σ : Type) := ExceptT Error (StateM σ)

namespace Action

variable {σ : Type}

/-- Records something. -/
def log [Journal σ] (level : LogLevel) (text : String) : Action σ Unit :=
  modify (Journal.add ⟨level, text⟩)

end Action

/-- What answers calls about some of the repository URLs. -/
structure Provider (σ : Type) where
  name : String
  handles : String → Bool
  perform : (call : Call) → CallContext → Action σ call.Answer

end HostedGit
