/-
Which provider gets a call. A resolver goes by the text of the URL, while a repository URL is read after its
host has been brought into one form: calls about a URL that names a repository get to the service wherever
its host is written out, and only there.
-/
import HostedGit.Proofs.Action
import HostedGit.Proofs.Locator.Place
import HostedGit.Resolver
import HostedGit.Service

namespace HostedGit

/-! ## Hosts that are written out -/

namespace Locator

variable {url : String} {l : Locator}

theorem looksHosted_iff : looksHosted url = true ↔ sharedHost <:+: url.toList ∨ ownHostEnding <:+: url.toList := by
  rw [looksHosted, Bool.or_eq_true, Text.occursIn_iff, Text.occursIn_iff]

/-- A repository URL whose host is written out: over HTTP as far as the name of a service goes, and over SSH in that
the host mentions a service. -/
inductive WrittenOut : String → Prop
  | http {scheme rest : List Char} (hs : Scheme.isHttp scheme = true) (hw : isWrittenOut (hostWritten rest) = true) :
    WrittenOut (String.ofList (scheme ++ "://".toList ++ rest))
  | ssh {front host path : List Char} (hh : ':' ∉ host ∧ '/' ∉ host)
    (hm : sharedHost <:+: host ∨ ownHostEnding <:+: host) :
    WrittenOut (String.ofList (front ++ "@ssh.".toList ++ host ++ ":v3/".toList ++ path))

theorem looksHosted_of_writtenOut (hp : parse url = .ok l) (hw : WrittenOut url) : looksHosted url = true := by
  cases hw with
  | @http scheme rest hs hw =>
    obtain ⟨host, hparse, hhost⟩ := parse_hostWritten hs hp
    have whole : hostWritten rest <:+: scheme ++ "://".toList ++ rest :=
      (hostWritten_isInfix rest).trans (List.suffix_append _ _).isInfix
    rw [looksHosted_iff, String.toList_ofList]
    exact (mentions_of_parse hw hparse hhost).imp (·.trans whole) (·.trans whole)
  | @ssh front host path hh hm =>
    have whole : host <:+: front ++ "@ssh.".toList ++ host ++ ":v3/".toList ++ path :=
      ⟨front ++ "@ssh.".toList, ":v3/".toList ++ path, by simp only [List.append_assoc]⟩
    rw [looksHosted_iff, String.toList_ofList]
    exact hm.imp (·.trans whole) (·.trans whole)

end Locator

/-! ## Dispatch -/

namespace Resolver

variable {σ : Type}

theorem find?_of_handles {r : Resolver σ} {p : Provider σ} {url : String} (hr : r.registered = [p])
    (h : p.handles url = true) : r.find? url = some p := by
  simp [find?, hr, h]

theorem find?_register_empty (p : Provider σ) (url : String) :
    (empty.register p).find? url = if p.handles url then some p else none := by
  cases h : p.handles url <;> simp [find?, empty, register, h]

/-- A call gets to the provider that is found for it. -/
theorem perform_of_find? [Journal σ] {r : Resolver σ} {p : Provider σ} {call : Call}
    (h : r.find? call.target.url = some p) (ctx : CallContext) : r.perform call ctx = (do
      Action.log .debug ("Using '" ++ p.name ++ "' provider for " ++ redact call.target.url)
      p.perform call ctx) := by
  have found : r.providerFor call.target.url = (do
      Action.log .debug ("Using '" ++ p.name ++ "' provider for " ++ redact call.target.url)
      return p) := by
    rw [providerFor, h]
  cases call <;> simp only [perform, h, found] <;> rfl

section

variable [Journal σ] {r : Resolver σ} {url : String}

theorem providerFor_of_find? {p : Provider σ} (h : r.find? url = some p) (s : σ) : r.providerFor url s =
    (.ok p, Journal.add ⟨.debug, "Using '" ++ p.name ++ "' provider for " ++ redact url⟩ s) := by
  rw [providerFor, h]
  rfl

theorem providerFor_of_none (h : r.find? url = none) :
    r.providerFor url = throw (.unsupportedUrl (redact url)) := by
  rw [providerFor, h]

theorem perform_of_none {call : Call} (h : r.find? call.target.url = none) (hc : ∀ t, call ≠ .removeCache t)
    (ctx : CallContext) : r.perform call ctx = throw (.unsupportedUrl (redact call.target.url)) := by
  have failed : (do let p ← r.providerFor call.target.url; p.perform call ctx) =
      (throw (.unsupportedUrl (redact call.target.url)) : Action σ call.Answer) := by
    rw [providerFor_of_none h]
    rfl
  cases call with
  | removeCache t => exact absurd rfl (hc t)
  | _ => exact failed

/-- Without a provider there is nothing to forget. -/
theorem removeCache_of_none {t : Target} (h : r.find? t.url = none) (ctx : CallContext) :
    r.perform (.removeCache t) ctx = Action.log .debug ("No provider caches " ++ redact t.url) := by
  have h : r.find? (Call.removeCache t).target.url = none := h
  rw [perform, h]

end

end Resolver

namespace Service

/-- A call about a repository whose host is written out gets to the service, whatever the fallback is. -/
theorem reached_if_written_out {url : String} {l : Locator} (hp : Locator.parse url = .ok l)
    (hw : Locator.WrittenOut url) : Locator.looksHosted url = true ∧
      ∀ (s : Service) (fallback : Option (Provider Session)) (call : Call) (ctx : CallContext), call.target.url = url →
        { Resolver.empty.register s.toProvider with fallback }.perform call ctx = (do
          Action.log .debug ("Using 'azure' provider for " ++ redact url)
          s.perform ctx call) := by
  have handled := Locator.looksHosted_of_writtenOut hp hw
  refine ⟨handled, fun s fallback call ctx hu => ?_⟩
  subst hu
  have found : { Resolver.empty.register s.toProvider with fallback }.find? call.target.url = some s.toProvider :=
    Resolver.find?_of_handles rfl handled
  exact Resolver.perform_of_find? found ctx

/-- Capitals before the ending of a host, a username and a port do not hide a hosted repository. -/
theorem reached_if_written_out_capital :
    Locator.parse "https://me@My-Org.visualstudio.com:443/proj/_git/repo" = .ok ⟨"my-org", "proj", "repo", "me", ""⟩ ∧
      Locator.WrittenOut "https://me@My-Org.visualstudio.com:443/proj/_git/repo" ∧
      Locator.looksHosted "https://me@My-Org.visualstudio.com:443/proj/_git/repo" = true := by
  have hp : Locator.parse "https://me@My-Org.visualstudio.com:443/proj/_git/repo" =
      .ok ⟨"my-org", "proj", "repo", "me", ""⟩ := Locator.eq_ok_of_toOption (by decide +kernel)
  have hw : Locator.WrittenOut "https://me@My-Org.visualstudio.com:443/proj/_git/repo" :=
    @Locator.WrittenOut.http "https".toList "me@My-Org.visualstudio.com:443/proj/_git/repo".toList rfl
      (by decide +kernel)
  exact ⟨hp, hw, (reached_if_written_out hp hw).1⟩

/-- A host in capitals is read, but a resolver does not see it. -/
theorem capital_host_unseen : ¬ ∀ (url : String) (l : Locator), Locator.parse url = .ok l →
    Locator.looksHosted url = true := by
  intro h
  have hp : Locator.parse "https://DEV.AZURE.COM/org/proj/_git/repo" = .ok ⟨"org", "proj", "repo", .blank⟩ :=
    Locator.eq_ok_of_toOption (by decide +kernel)
  have := h _ _ hp
  revert this
  decide +kernel

end Service

end HostedGit
