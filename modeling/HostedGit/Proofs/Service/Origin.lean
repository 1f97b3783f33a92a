/-
Where calls go. Below a base URL that settings let through, every resource has a place, at the scheme and the authority
of the base URL, whatever the repository's URL, the reference and the object ids hold. So no call ever fails for want of
a place, and nobody but who is reached there gets a request that has not been sent on.
-/
import HostedGit.Proofs.Service.Download
import HostedGit.Proofs.Service.Parallel
import HostedGit.Proofs.Service.Plan

namespace HostedGit

open HostedGit.Action Session

/-! ## Errors -/

/-- An error that does not come of a resource without a place. -/
def Error.Sited (e : Error) : Prop := ∀ endpoint cause, e ≠ .endpointBuild endpoint cause

theorem Client.Fault.sited {step : String} {e : Error} (h : Fault step e) : e.Sited := by
  rintro endpoint cause rfl
  generalize he : Error.endpointBuild endpoint cause = e at h
  cases h with
  | transport => cases he
  | interruption h => subst he; cases h
  | status n =>
    unfold Error.ofStatus at he
    split at he
    · cases he
    · split at he <;> cases he

namespace Client

variable {α : Type} (c : Client) (ctx : CallContext)

theorem getDocument_sited (u : Url) (k : Option Credentials) (step what : String)
    (decode : Octets → Except Json.Error α) : FailsOnly Error.Sited (c.getDocument ctx u k step what decode) :=
  c.getDocument_failsOnly ctx step (fun _ => Fault.sited) (fun _ => nofun) u k decode

end Client

namespace Service

variable {s : Service} (hs : s.Placed) (ctx : CallContext) (r : Repository)

theorem repository_sited (t : Target) : FailsOnly Error.Sited (repository t) := by
  unfold repository
  cases Locator.parse t.url with
  | ok l => exact .pure _
  | error e => exact .throw nofun

theorem unpack_sited (s : Service) (destination : String) : FailsOnly Error.Sited (s.unpack destination) := by
  intro σ e σ' h
  rcases s.unpack_cases destination σ with hx | ⟨cause, hx⟩
  · rw [h] at hx
    cases hx
  · rw [h] at hx
    cases hx
    nofun

theorem withArchive_sited {act : Action Session Unit} (ha : FailsOnly Error.Sited act) :
    FailsOnly Error.Sited (withArchive act) := by
  intro σ e σ' h
  obtain ⟨σ₁, hx, -⟩ := withArchive_cases h
  exact ha hx

theorem settleRoot_sited (reference : String) (items : List Payload.RootItem) :
    FailsOnly Error.Sited (settleRoot r reference items) := by
  intro σ e σ' h
  rcases settleRoot_cases r reference items with ⟨_, -, -, hx⟩ | ⟨-, hx⟩
  · rw [hx] at h
    cases h
  · rw [hx] at h
    cases h
    nofun

include hs

theorem resource_sited (e : Endpoint) : FailsOnly Error.Sited (s.resource r e) := by
  obtain ⟨u, hu, -⟩ := hs r.locator e
  exact .of_ok fun σ => ⟨u, σ, resource_ok hu σ⟩

theorem fetchRefs_sited : FailsOnly Error.Sited (s.fetchRefs ctx r) :=
  (resource_sited hs r _).bind fun u => s.client.getDocument_sited ctx u _ _ _ _

theorem fetchTree_sited (objectId : String) : FailsOnly Error.Sited (s.fetchTree ctx r objectId) :=
  (resource_sited hs r _).bind fun u => s.client.getDocument_sited ctx u _ _ _ _

theorem fetchRoot_sited (reference : String) : FailsOnly Error.Sited (s.fetchRoot ctx r reference) := by
  rw [fetchRoot_eq]
  exact (resource_sited hs r _).bind fun u =>
    (s.client.getDocument_sited ctx u _ _ _ _).bind fun items => settleRoot_sited r reference items

theorem refreshRefs_sited (url : String) : FailsOnly Error.Sited (s.refreshRefs ctx r url) :=
  (fetchRefs_sited hs ctx r).bind fun _ => .bind (.log _ _) fun _ =>
    .bind (.of_ok fun _ => ⟨_, _, rfl⟩) fun _ => .pure _

theorem knownRefs_sited (url : String) : FailsOnly Error.Sited (s.knownRefs ctx r url) := by
  intro σ e σ' h
  cases hc : σ.cache.getRefs url with
  | some names =>
    rw [knownRefs_of_some hc] at h
    cases h
  | none =>
    rw [knownRefs_of_none hc] at h
    exact refreshRefs_sited hs ctx r url h

theorem fetchPaths_sited (t : Target) : FailsOnly Error.Sited (s.fetchPaths ctx r t) := by
  unfold fetchPaths
  refine (knownRefs_sited hs ctx r t.url).bind fun names => ?_
  split
  · exact .throw_bind nofun _
  refine (fetchRoot_sited hs ctx r t.reference).bind fun root => ?_
  refine (fetchTree_sited hs ctx r root.objectId).bind fun paths => ?_
  exact .bind (.log _ _) fun _ => .bind (.of_ok fun _ => ⟨_, _, rfl⟩) fun _ => .pure _

theorem listTree_sited (t : Target) (extensions : List String) :
    FailsOnly Error.Sited (s.listTree ctx t extensions) := by
  unfold listTree
  refine (repository_sited t).bind fun r => .bind (.of_ok fun σ => ⟨σ, σ, rfl⟩) fun σ => ?_
  cases σ.cache.getTree t.url t.reference with
  | some paths => exact .bind (.log _ _) fun _ => .pure _
  | none => exact (fetchPaths_sited hs ctx r t).bind fun _ => .pure _

theorem fetchArchive_sited (reference : String) : FailsOnly Error.Sited (s.fetchArchive ctx r reference) :=
  fetchArchive_failsOnly (resource_sited hs r _) (fun _ => Client.Fault.sited) (fun _ _ => nofun) ctx

theorem download_sited (t : Target) (destination : String) : FailsOnly Error.Sited (s.download ctx t destination) := by
  have checked : ∀ step, FailsOnly Error.Sited (Session.check ctx step) := fun step =>
    (Session.check_fails ctx step).mono fun _ => Client.Fault.sited
  unfold download
  refine (repository_sited t).bind fun r => (checked _).bind fun _ => ?_
  refine (store_failsOnly (fun _ => nofun) _).bind fun _ => withArchive_sited ?_
  refine (store_failsOnly (fun _ => nofun) _).bind fun _ => ?_
  refine (fetchArchive_sited hs ctx r t.reference).bind fun _ => ?_
  refine .bind (.of_ok fun σ => ⟨_, σ, rfl⟩) fun size => .bind (.of_ok fun σ => ⟨σ, σ, rfl⟩) fun σ => ?_
  refine .bind (.log _ _) fun _ => (checked _).bind fun _ => (unpack_sited s destination).bind fun _ => .log _ _

/-- With a place for every resource, no call fails for want of one. -/
theorem perform_sited (c : Call) : FailsOnly Error.Sited (s.perform ctx c) := by
  cases c with
  | listRemote t => exact (repository_sited t).bind fun r => refreshRefs_sited hs ctx r t.url
  | listTree t extensions => exact listTree_sited hs ctx t extensions
  | latestCommit t =>
    exact (repository_sited t).bind fun r => (fetchRoot_sited hs ctx r t.reference).bind fun _ =>
      .bind (.log _ _) fun _ => .pure _
  | download t destination => exact download_sited hs ctx t destination
  | removeCache t => exact .of_ok fun σ => ⟨_, _, rfl⟩

omit hs

/-! ## Requests -/

/-- A remote that is not reached where any resource lies gets no request. -/
theorem requests_of_unreached {c : Call} {σ : Session}
    (h : ∀ l e u, Endpoint.url s.baseUrl l e = .ok u → σ.remote.reaches u = false) :
    (s.perform ctx c σ).2.requests = σ.requests := by
  have untouched : (s.perform ctx c σ).2.line = σ.line := by
    refine perform_line (I := (· = σ.line)) ?_ rfl
    intro l e u step _ hu σ' hσ'
    have away : σ'.line.remote.reaches u = false := by
      rw [hσ']
      exact h l e u hu
    have asked : Client.AsksOnce u _ σ'.line
        (s.client.get ctx u (Credentials.select c.target.credentials l.embedded) step σ').2.line :=
      Client.line_get fun reached => by
        rw [away] at reached
        cases reached
    rcases asked with same | ⟨reached, -⟩
    · exact same.trans hσ'
    · rw [away] at reached
      cases reached
  exact congrArg Line.requests untouched

/-- Below a base URL that settings let through, every resource of every locator has a URL, with the scheme and the
authority of the base. No call of a service that works below it fails for want of a place, and none asks a remote that
is not reached at this scheme and authority. -/
theorem accepted_base_is_kept {settings : Settings} {config : Config} (hb : settings.build = .ok config) :
    ∃ base, Url.parse config.baseUrl.toList = .ok base ∧
      (∀ l e, ∃ u, Endpoint.url config.baseUrl l e = .ok u ∧ u.scheme = base.scheme ∧ u.authority = base.authority) ∧
      ∀ (s : Service) (ctx : CallContext) (c : Call) (σ : Session), s.baseUrl = config.baseUrl →
        (∀ endpoint cause, (s.perform ctx c σ).1 ≠ .error (.endpointBuild endpoint cause)) ∧
        ((∀ u : Url, u.scheme = base.scheme → u.authority = base.authority → σ.remote.reaches u = false) →
          (s.perform ctx c σ).2.requests = σ.requests) := by
  obtain ⟨base, hbase, hscheme⟩ := Settings.base_of_build hb
  refine ⟨base, hbase, fun l e => ?_, fun s ctx c σ hs => ⟨fun endpoint cause failed => ?_, fun away => ?_⟩⟩
  · obtain ⟨u, hu, -⟩ := Endpoint.url_ok hbase hscheme l e
    obtain ⟨ha, hs⟩ := Endpoint.authority_of_url hbase hu
    exact ⟨u, hu, hs, ha⟩
  · exact perform_sited (placed_of_build hb hs) ctx c (Prod.ext failed rfl) endpoint cause rfl
  · refine requests_of_unreached ctx fun l e u hu => ?_
    obtain ⟨ha, hs⟩ := Endpoint.authority_of_url hbase (hs ▸ hu)
    exact away u hs ha

/-- Names that look like another host, and an object ID that looks like a URL, stay within the path. -/
theorem accepted_base_is_kept_lures :
    let settings : Settings := { Settings.none with baseUrl := some "https://me:pw@ado.example:8443/tfs//" }
    let config : Config := { Config.default with baseUrl := "https://me:pw@ado.example:8443/tfs" }
    let s : Service := ⟨⟨"client", ⟨30000000000⟩⟩, config.baseUrl, fun _ _ _ => pure 0, false⟩
    let url := "https://dev.azure.com/%40lure.example/%2F%2Flure.example%3A80/_git/..%2F.."
    let t : Target := ⟨url, "main", ⟨"", "token"⟩⟩
    let σ : Session := .start ⟨fun u => Locator.hostOf u = "lure.example".toList, fun _ _ => .never⟩ .empty "archive"
    settings.build = .ok config ∧
      (∃ u, Endpoint.url config.baseUrl ⟨"@lure.example", "//lure.example:80", "../..", .blank⟩
          (.tree "http://lure.example/") = .ok u ∧ u.scheme = "https".toList ∧
        u.authority = some ⟨"me".toList, "pw".toList, "ado.example".toList, some 8443⟩) ∧
      (s.perform (.ofToken ⟨0⟩) (.latestCommit t) σ).2.requests = [] := by
  intro settings config s url t σ
  have hb : settings.build = .ok config := Locator.eq_ok_of_toOption (by decide +kernel)
  obtain ⟨base, hbase, placed, kept⟩ := accepted_base_is_kept hb
  have read : (Url.parse config.baseUrl.toList).toOption.map (fun u => (u.scheme, u.authority)) =
      some ("https".toList, some ⟨"me".toList, "pw".toList, "ado.example".toList, some 8443⟩) := by decide +kernel
  rw [hbase] at read
  obtain ⟨hscheme, hauthority⟩ := Prod.mk.inj (Option.some.inj read)
  refine ⟨hb, ?_, (kept s (.ofToken ⟨0⟩) (.latestCommit t) σ rfl).2 fun u _ ha => ?_⟩
  · obtain ⟨u, hu, hs, ha⟩ :=
      placed ⟨"@lure.example", "//lure.example:80", "../..", .blank⟩ (.tree "http://lure.example/")
    exact ⟨u, hu, hs.trans hscheme, ha.trans hauthority⟩
  · have host : Locator.hostOf u = "ado.example".toList := by
      unfold Locator.hostOf
      rw [ha, hauthority]
      rfl
    show decide (Locator.hostOf u = "lure.example".toList) = false
    rw [host]
    decide

end Service

end HostedGit
