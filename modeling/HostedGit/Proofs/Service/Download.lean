/-
Downloads. All that a call leaves of a download is what the extractor has done to the files, and it gets to
do so only when the body of a reply has come in full: it then works on that body. The temporary archive is
gone however the call ends, and the cache is as it was.
-/
import HostedGit.Proofs.Archive.Extract
import HostedGit.Proofs.Locator
import HostedGit.Proofs.Service.Frame
import HostedGit.Proofs.Service.Run
import HostedGit.Proofs.Session.Transfer

namespace HostedGit

open HostedGit.Action

/-- A reply that came in full after an earlier session, to the last request, and that carries content. -/
structure Session.Received (σ σ' : Session) (r : Reply) : Prop where
  replied : σ.Replied σ' r
  success : Status.isSuccess r.status = true
  complete : r.body.Comes

namespace Service

open Session

variable {s : Service} {ctx : CallContext} {r : Repository} {σ σ' : Session}

/-! ## Errors that come before unpacking -/

/-- An error that does not come of unpacking. -/
def Early (e : Error) : Prop := ∀ cause, e ≠ .extraction cause

theorem repository_early (t : Target) : FailsOnly Early (repository t) := by
  unfold repository
  cases Locator.parse t.url with
  | ok l => exact .pure _
  | error e => exact .throw nofun

theorem resource_early (s : Service) (r : Repository) (e : Endpoint) : FailsOnly Early (s.resource r e) := by
  unfold resource
  cases e.url s.baseUrl r.locator with
  | ok u => exact .pure _
  | error cause => exact .throw nofun

theorem check_early (ctx : CallContext) (step : String) : FailsOnly Early (Session.check ctx step) :=
  (Session.check_fails ctx step).mono fun _ => Client.Fault.ne_extraction

/-- Storage is at fault, or nothing is. -/
theorem store_failsOnly {P : Error → Prop} {step : String} (hio : ∀ cause, P (.io step cause))
    (failure : Storage → Option String) : FailsOnly P (store step failure) := by
  intro σ e σ' h
  rw [store_apply] at h
  cases hc : failure σ.storage with
  | none =>
    rw [hc] at h
    cases h
  | some cause =>
    rw [hc] at h
    cases h
    exact hio cause

theorem store_early (step : String) (failure : Storage → Option String) : FailsOnly Early (store step failure) :=
  store_failsOnly (fun _ => nofun) failure

/-- What storage does not fail at changes nothing. -/
theorem store_still {step : String} {failure : Storage → Option String} {u : Unit}
    (h : store step failure σ = (.ok u, σ')) : σ = σ' := by
  rw [store_apply] at h
  exact (Prod.mk.inj h).2

theorem append_apply (octets : Octets) (σ : Session) :
    append octets σ = match σ.storage.write (σ.archive.getD []) octets with
      | none => (.ok (), { σ with archive := some (σ.archive.getD [] ++ octets) })
      | some cause => (.error (.io "save HTTP response to a file" cause), σ) := by
  have stored := store_apply "save HTTP response to a file" (·.write (σ.archive.getD []) octets) σ
  unfold append
  rw [bind_ok (get_apply σ)]
  cases hc : σ.storage.write (σ.archive.getD []) octets with
  | none =>
    rw [hc] at stored
    exact bind_ok stored
  | some cause =>
    rw [hc] at stored
    exact bind_error stored

theorem append_cases (octets : Octets) (σ : Session) :
    (∃ cause, append octets σ = (.error (.io "save HTTP response to a file" cause), σ)) ∨
      append octets σ = (.ok (), { σ with archive := some (σ.archive.getD [] ++ octets) }) := by
  rw [append_apply]
  cases σ.storage.write (σ.archive.getD []) octets with
  | none => exact .inr rfl
  | some cause => exact .inl ⟨cause, rfl⟩

theorem save_puts (s : Service) : PutsBy s.save := by
  intro piece σ
  rcases append_cases piece σ with ⟨cause, failed⟩ | put
  · exact .inl ⟨_, bind_error failed⟩
  · exact .inr ⟨_, (bind_ok put).trans (s.tell_apply _ _)⟩

theorem save_failsOnly {P : Error → Prop} (hio : ∀ step cause, P (.io step cause)) (s : Service) (piece : Octets) :
    FailsOnly P (s.save piece) := by
  have appended : FailsOnly P (append piece) := by
    intro σ e σ' h
    rcases append_cases piece σ with ⟨cause, failed⟩ | put
    · rw [failed] at h
      cases h
      exact hio _ cause
    · rw [put] at h
      cases h
  exact appended.bind fun _ => .bind (.of_ok fun σ => ⟨_, σ, rfl⟩) fun _ => .of_ok fun σ => ⟨_, _, s.tell_apply _ σ⟩

/-- A transfer fails where its resource lies nowhere, by the exchange, by the context, or by storage. -/
theorem fetchArchive_failsOnly {P : Error → Prop} {r : Repository} {reference : String}
    (hu : FailsOnly P (s.resource r (.download reference))) (hf : ∀ e, Client.Fault "download zip" e → P e)
    (hio : ∀ step cause, P (.io step cause)) (ctx : CallContext) : FailsOnly P (s.fetchArchive ctx r reference) := by
  rw [fetchArchive_eq]
  refine hu.bind fun u => ((s.client.get_fails ctx _ u _).mono hf).bind fun response => ?_
  exact .bind (.of_ok fun σ => ⟨_, _, s.announce_apply r _ σ⟩) fun _ =>
    .bind (Client.forPieces_fails ctx _ _ hf _ (save_failsOnly hio s) _) fun _ =>
    .bind (.bind (.of_ok fun σ => ⟨σ, σ, rfl⟩) fun _ => store_failsOnly (hio _) _) fun _ =>
    .of_ok fun σ => ⟨_, _, s.tell_apply _ σ⟩

theorem fetchArchive_early (s : Service) (ctx : CallContext) (r : Repository) (reference : String) :
    FailsOnly Early (s.fetchArchive ctx r reference) :=
  fetchArchive_failsOnly (resource_early s r _) (fun _ => Client.Fault.ne_extraction) (fun _ _ => nofun) ctx

/-! ## What is unpacked -/

theorem archive_frame : Frame fun σ σ' => σ'.archive = σ.archive where
  refl _ := rfl
  trans h h' := h'.trans h
  log _ _ := rfl
  wait _ _ := rfl
  ask _ _ := rfl

/-- What is fetched is the whole body of a reply. -/
theorem fetchArchive_ok {reference : String} (ha : σ.archive = some [])
    (h : s.fetchArchive ctx r reference σ = (.ok (), σ')) :
    ∃ reply, σ.Received σ' reply ∧ σ'.archive = some reply.body.octets := by
  rw [fetchArchive_eq] at h
  obtain ⟨u, σ₁, hu, h⟩ := bind_answered h
  rw [resource_apply] at hu
  obtain ⟨-, rfl⟩ := Prod.mk.inj hu
  obtain ⟨response, σ₂, hget, h⟩ := bind_answered h
  obtain ⟨hreplied, hsuccess⟩ := Client.get_ok hget
  have empty : σ₂.archive = some [] := ((archive_frame.keeps_get _ _ _ _ _).of_eq hget).trans ha
  rw [bind_ok (s.announce_apply r _ σ₂)] at h
  obtain ⟨_, σ₃, hpieces, h⟩ := bind_answered h
  have begun : ({ σ₂ with progress := σ₂.progress ++ s.told (heading r response.reply.length) } : Session).archive =
    some [] := empty
  obtain ⟨taken, -, ⟨t, told, rfl⟩, whole⟩ := Client.forPieces_puts s.save_puts begun hpieces
  obtain ⟨_, σ₄, hflush, h⟩ := bind_answered h
  rw [flush_apply] at hflush
  obtain rfl := store_still hflush
  cases (s.tell_apply _ _).symm.trans h
  refine ⟨response.reply, ⟨hreplied, hsuccess, Client.forPieces_ok hpieces⟩, ?_⟩
  rw [whole rfl]
  rfl

theorem archiveSize_apply (σ : Session) : archiveSize σ = (.ok (σ.archive.getD []).length, σ) := rfl

/-- What a destination becomes, and how the call ends, by what the extractor makes of a reply. -/
def Unpacks (s : Service) (destination : String) (σ σ' : Session) (reply : Reply) (out : Except Error Unit) : Prop :=
  ∃ result, (s.extractor σ.archiveName (some reply.body.octets) destination).run.run σ.files = (result, σ'.files) ∧
    out = (result.map fun _ => ()).mapError .extraction

/-- What is remembered, and how the temporary archive is called, are left alone. -/
theorem kept_wide : WideFrame fun σ σ' => σ'.cache = σ.cache ∧ σ'.archiveName = σ.archiveName where
  refl _ := ⟨rfl, rfl⟩
  trans h h' := ⟨h'.1.trans h.1, h'.2.trans h.2⟩
  log _ _ := ⟨rfl, rfl⟩
  wait _ _ := ⟨rfl, rfl⟩
  ask _ _ := ⟨rfl, rfl⟩
  archive _ _ := ⟨rfl, rfl⟩
  progress _ _ := ⟨rfl, rfl⟩
  files _ _ := ⟨rfl, rfl⟩

/-- Unpacking ends as the extractor does, and nothing but the files depends on it. -/
theorem unpack_ends {destination text : String} {level : LogLevel} {out : Except Error Unit}
    (h : (do s.unpack destination; Action.log level text) σ = (out, σ')) :
    ∃ result, (s.extractor σ.archiveName σ.archive destination).run.run σ.files = (result, σ'.files) ∧
      out = (result.map fun _ => ()).mapError .extraction ∧ σ'.requests = σ.requests := by
  have ends := s.unpack_apply destination σ
  rcases hx : (s.extractor σ.archiveName σ.archive destination).run.run σ.files with ⟨cause | count, files⟩
  · rw [hx] at ends
    rw [bind_error ends] at h
    cases h
    exact ⟨_, rfl, rfl, rfl⟩
  · rw [hx] at ends
    rw [bind_ok ends] at h
    cases h
    exact ⟨_, rfl, rfl, rfl⟩

/-- A download that is answered, or fails while it is unpacked, has received what it unpacks in full. -/
theorem download_unpacks {t : Target} {destination : String} {out : Except Error Unit}
    (h : s.download ctx t destination σ = (out, σ')) (late : ∀ e, out = .error e → ¬ Early e) :
    ∃ reply, σ.Received σ' reply ∧ s.Unpacks destination σ σ' reply out := by
  unfold download at h
  obtain ⟨r, σ₁, hrepository, h⟩ := (repository_early t).answered h late
  rw [repository_apply] at hrepository
  obtain ⟨-, rfl⟩ := Prod.mk.inj hrepository
  obtain ⟨_, σ₂, hcheck, h⟩ := (check_early ctx _).answered h late
  obtain ⟨-, rfl⟩ := Prod.mk.inj hcheck
  obtain ⟨_, σ₃, hmake, h⟩ := (store_early _ _).answered h late
  obtain rfl := store_still hmake
  obtain ⟨σ₃, hact, rfl⟩ := withArchive_cases h
  obtain ⟨_, σ₄, hreopen, hact⟩ := (store_early _ _).answered hact late
  obtain rfl := store_still hreopen
  obtain ⟨_, σ₄, hfetch, hact⟩ := (fetchArchive_early s ctx r t.reference).answered hact late
  obtain ⟨reply, received, fetched⟩ := fetchArchive_ok rfl hfetch
  have sameFiles := (files_transfer.keeps_fetchArchive s ctx r t.reference).of_eq hfetch
  obtain ⟨-, sameName⟩ := (kept_wide.keeps_fetchArchive s ctx r t.reference).of_eq hfetch
  rw [bind_ok (archiveSize_apply σ₄), bind_ok (get_apply σ₄), bind_ok (log_apply _ _ σ₄)] at hact
  obtain ⟨_, σ₅, hcheck, hact⟩ := (check_early ctx _).answered hact late
  obtain ⟨-, rfl⟩ := Prod.mk.inj hcheck
  obtain ⟨result, hrun, hout, sameRequests⟩ := unpack_ends hact
  have hrun : (s.extractor σ₄.archiveName σ₄.archive destination).run.run σ₄.files = (result, σ₃.files) := hrun
  rw [sameName, fetched, sameFiles] at hrun
  obtain ⟨earlier, q, delay, before, asked, replied⟩ := received.replied
  exact ⟨reply, ⟨⟨earlier, q, delay, before, sameRequests.trans asked, replied⟩, received.success,
    received.complete⟩, result, hrun, hout⟩

/-! ## What is left behind -/

theorem archive_listing : ListingFrame fun σ σ' => σ.archive = none → σ'.archive = none where
  refl _ h := h
  trans h h' ha := h' (h ha)
  log _ _ h := h
  wait _ _ h := h
  ask _ _ h := h
  gain _ _ h := h
  cache _ _ h := h

/-- A temporary archive is gone, whatever has been done with it and however that ended. -/
theorem withArchive_gone (act : Action Session Unit) :
    Keeps (fun σ σ' => σ.archive = none → σ'.archive = none) (withArchive act) := fun _ _ => rfl

theorem download_archive (s : Service) (ctx : CallContext) (t : Target) (destination : String) :
    Keeps (fun σ σ' => σ.archive = none → σ'.archive = none) (s.download ctx t destination) := by
  have hF := archive_listing
  unfold download
  exact hF.bind (hF.keeps_repository t) fun r => hF.bind (hF.keeps_check _ _) fun _ =>
    hF.bind (hF.keeps_store _ _) fun _ => withArchive_gone _

/-- A download leaves nothing behind but a finished extraction, of the whole body of a reply. A failure
before that leaves the files as they were, and so does a body that is no archive; of an archive that cannot
be unpacked to its end, the part stays that the extractor has unpacked. -/
theorem download_only_unpacks (s : Service) (hs : s.extractor = Extract.archive) (ctx : CallContext) (t : Target)
    (destination : String) (σ : Session) :
    let out := s.download ctx t destination σ
    out.2.cache = σ.cache ∧ (σ.archive = none → out.2.archive = none) ∧
      (∀ e, out.1 = .error e → (∀ cause, e ≠ .extraction cause) → out.2.files = σ.files) ∧
      (∀ cause, out.1 = .error (.extraction cause) → ∃ reply, σ.Received out.2 reply ∧
        (Extract.archive σ.archiveName (some reply.body.octets) destination).run.run σ.files =
          (.error cause, out.2.files) ∧
        ((∃ shown, cause = .unreadable shown) ↔ Zip.read? reply.body.octets = none) ∧
        (Zip.read? reply.body.octets = none → out.2.files = σ.files)) ∧
      (out.1 = .ok () → ∃ reply count, σ.Received out.2 reply ∧
        (Extract.archive σ.archiveName (some reply.body.octets) destination).run.run σ.files =
          (.ok count, out.2.files)) := by
  have cache := (kept_wide.keeps_download s ctx t destination σ).1
  have archive := s.download_archive ctx t destination σ
  have spared := s.download_spares ctx t destination σ
  rcases h : s.download ctx t destination σ with ⟨out, σ'⟩
  rw [h] at cache archive spared
  refine ⟨cache, archive, spared, fun cause failed => ?_, fun done => ?_⟩
  · obtain rfl : out = .error (.extraction cause) := failed
    obtain ⟨reply, received, result, hrun, hout⟩ :=
      download_unpacks h fun e he early => early cause (Except.error.inj he).symm
    rw [hs] at hrun
    cases result with
    | ok count => cases hout
    | error cause' =>
      cases hout
      refine ⟨reply, received, hrun, by simpa using Extract.unreadable_iff hrun, fun hz => ?_⟩
      rw [Extract.archive_of_unreadable hz] at hrun
      exact (Prod.mk.inj hrun).2.symm
  · obtain rfl : out = .ok () := done
    obtain ⟨reply, received, result, hrun, hout⟩ := download_unpacks h nofun
    rw [hs] at hrun
    cases result with
    | ok count => exact ⟨reply, count, received, hrun⟩
    | error cause => cases hout

/-- An archive of one stored file, whose body comes in two pieces. -/
theorem download_only_unpacks_stored :
    let s : Service := ⟨⟨"client", ⟨30000000000⟩⟩, "https://dev.azure.com", Extract.archive, true⟩
    let zip : Octets := [
      80, 75, 3, 4, 20, 0, 0, 0, 0, 0, 0, 0, 33, 0, 172, 42, 147, 216, 2, 0, 0, 0, 2, 0, 0, 0, 5, 0, 0, 0, 97,
      46, 116, 120, 116, 104, 105, 80, 75, 1, 2, 20, 3, 20, 0, 0, 0, 0, 0, 0, 0, 33, 0, 172, 42, 147, 216, 2,
      0, 0, 0, 2, 0, 0, 0, 5, 0, 0, 0, 0, 0, 0, 0, 0, 0, 0, 0, 164, 129, 0, 0, 0, 0, 97, 46, 116, 120, 116, 80,
      75, 5, 6, 0, 0, 0, 0, 1, 0, 1, 0, 51, 0, 0, 0, 37, 0, 0, 0, 0, 0]
    let reply : Reply := ⟨200, none, none, ⟨[(⟨1⟩, zip.take 40), (⟨1⟩, zip.drop 40)], .after ⟨0⟩ ()⟩⟩
    let σ : Session := .start ⟨fun _ => true, fun _ _ => .after ⟨1⟩ reply⟩ .empty "archive"
    let t : Target := ⟨"https://dev.azure.com/org/project/_git/repo", "refs/heads/main", .blank⟩
    let out := s.download (.ofToken ⟨0⟩) t "out" σ
    s.extractor = Extract.archive ∧ out.1.toOption = some () ∧
      out.2.files.lookup ["out", "a.txt"] = some (.file [104, 105]) ∧
      out.2.cache = σ.cache ∧ out.2.archive = none ∧ ∃ reply count, σ.Received out.2 reply ∧
        (Extract.archive σ.archiveName (some reply.body.octets) "out").run.run σ.files =
          (.ok count, out.2.files) := by
  intro s zip reply σ t out
  have done : out.1.toOption = some () := by decide +kernel
  have unpacked : out.2.files.lookup ["out", "a.txt"] = some (.file [104, 105]) := by decide +kernel
  obtain ⟨cache, archive, -, -, whole⟩ := download_only_unpacks s rfl (.ofToken ⟨0⟩) t "out" σ
  exact ⟨rfl, done, unpacked, cache, archive rfl, whole (Locator.eq_ok_of_toOption done)⟩

end Service

end HostedGit
