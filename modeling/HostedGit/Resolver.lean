/-
A resolver hands each call on to one provider: the first of its registered ones that handles the
repository URL, and otherwise its fallback. It is a provider itself.
-/
import HostedGit.Provider
import HostedGit.Redaction

namespace HostedGit

/-- Providers in the order of their registration, and perhaps one for all other URLs. -/
structure Resolver (σ : Type) where
  registered : List (Provider σ)
  fallback : Option (Provider σ)

namespace Resolver

variable {σ : Type}

/-- A resolver without providers. -/
def empty : Resolver σ := ⟨[], none⟩

/-- Adds a provider behind those that are there. -/
def register (r : Resolver σ) (p : Provider σ) : Resolver σ :=
  { r with registered := r.registered ++ [p] }

/-- Sets the provider for URLs that no registered one handles. -/
def withFallback (r : Resolver σ) (p : Provider σ) : Resolver σ := { r with fallback := some p }

/-- The provider for a URL. -/
def find? (r : Resolver σ) (url : String) : Option (Provider σ) :=
  r.registered.find? (·.handles url) <|> r.fallback

/-- Whether there is a provider for a URL. -/
def handles (r : Resolver σ) (url : String) : Bool :=
  r.fallback.isSome || r.registered.any (·.handles url)

variable [Journal σ]

/-- The provider for a URL; recorded if there is one, and an error if there is none. -/
def providerFor (r : Resolver σ) (url : String) : Action σ (Provider σ) :=
  match r.find? url with
  | some p => do
    Action.log .debug ("Using '" ++ p.name ++ "' provider for " ++ redact url)
    return p
  | none => throw (.unsupportedUrl (redact url))

/-- Hands a call on. Without a provider it fails, but there is nothing to forget. -/
def perform (r : Resolver σ) (call : Call) (ctx : CallContext) : Action σ call.Answer :=
  match call, r.find? call.target.url with
  | .removeCache t, none => Action.log .debug ("No provider caches " ++ redact t.url)
  | call, _ => do
    let p ← r.providerFor call.target.url
    p.perform call ctx

/-- A resolver as a provider. -/
def toProvider (r : Resolver σ) : Provider σ := ⟨"resolver", r.handles, r.perform⟩

end Resolver

end HostedGit
