/-
What calls leave alone. An inquiry keeps every relation between sessions that does not look at the
documents, and a download every one that does not look at the archive, the files and what is told of the
transfer; a call as a whole keeps what both keep and what does not look at the cache. Files are only touched
by a download that has nothing more to ask for.
-/
import HostedGit.Proofs.Service.Steps
import HostedGit.Proofs.Session.Received

namespace HostedGit

open HostedGit.Action

/-- A frame that does not look at what a transfer works on. -/
structure Session.TransferFrame (R : Session → Session → Prop) : Prop extends Session.Frame R where
  archive : ∀ (s : Session) a, R s { s with archive := a }
  progress : ∀ (s : Session) p, R s { s with progress := p }

/-- A frame that does not look at what a download works on. -/
structure Session.WideFrame (R : Session → Session → Prop) : Prop extends Session.TransferFrame R where
  files : ∀ (s : Session) t, R s { s with files := t }

namespace Session.Frame

variable {R : Session → Session → Prop}

theorem keeps_repository (hR : Frame R) (t : Target) : Keeps R (Service.repository t) := by
  intro σ
  rw [Service.repository_apply]
  exact hR.refl σ

theorem keeps_resource (hR : Frame R) (s : Service) (r : Service.Repository) (e : Endpoint) :
    Keeps R (s.resource r e) := by
  intro σ
  rw [Service.resource_apply]
  exact hR.refl σ

theorem keeps_store (hR : Frame R) (step : String) (failure : Storage → Option String) :
    Keeps R (Service.store step failure) := by
  intro σ
  rw [Service.store_apply]
  exact hR.refl σ

theorem keeps_settleRoot (hR : Frame R) (r : Service.Repository) (reference : String)
    (items : List Payload.RootItem) : Keeps R (Service.settleRoot r reference items) := by
  intro σ
  rcases Service.settleRoot_cases r reference items with ⟨root, -, -, h⟩ | ⟨-, h⟩
  · rw [h]
    exact hR.refl σ
  · rw [h]
    exact hR.refl σ

end Session.Frame

/-! ## Inquiries -/

/-- An endpoint that cannot be built is not read from. -/
theorem Session.Reads.resource {α : Type} {step what : String} {decode : Octets → Except Json.Error α} {s : Service}
    {r : Service.Repository} {e : Endpoint} {f : Url → Action Session α}
    (hf : ∀ u, Session.Reads step what decode (f u))  : Session.Reads step what decode (s.resource r e >>= f) := by
  intro R hR σ
  rcases hu : s.resource r e σ with ⟨cause | u, σ'⟩
  · exact ⟨σ', (hR.keeps_resource s r e).of_eq hu, .inl ⟨cause, bind_error hu⟩⟩
  obtain ⟨σ'', hσ, h⟩ := hf u R hR σ'
  rw [bind_ok hu]
  exact ⟨σ'', hR.trans ((hR.keeps_resource s r e).of_eq hu) hσ, h⟩

namespace Service

open Session

theorem fetchRefs_reads (s : Service) (ctx : CallContext) (r : Repository) :
    Reads "list refs" "Azure refs" Payload.decodeRefs (s.fetchRefs ctx r) :=
  Reads.resource fun u => s.client.getDocument_reads ctx u r.credentials _ _ _

theorem fetchTree_reads (s : Service) (ctx : CallContext) (r : Repository) (objectId : String) :
    Reads "list tree" "Azure tree" Payload.decodeTree (s.fetchTree ctx r objectId) :=
  Reads.resource fun u => s.client.getDocument_reads ctx u r.credentials _ _ _

theorem fetchRoot_keeps {T : Session → Session → Prop} (hT : ReadingFrame T) (s : Service) (ctx : CallContext)
    (r : Repository) (reference : String) : Keeps T (s.fetchRoot ctx r reference) := by
  rw [fetchRoot_eq]
  refine hT.bind (hT.keeps_resource s r _) fun u => hT.bind ?_ fun items => hT.keeps_settleRoot r reference items
  exact (s.client.getDocument_reads ctx u r.credentials _ _ _).keeps hT

end Service

/-! ## Downloads -/

namespace Session.TransferFrame

variable {R : Session → Session → Prop} (hR : TransferFrame R) (s : Service)
include hR

theorem keeps_tell (e : ProgressEvent) : Keeps R (s.tell e) := by
  unfold Service.tell
  split
  · exact fun s => hR.progress s _
  · exact hR.keeps_pure _

theorem keeps_announce (r : Service.Repository) (length : Option Nat) : Keeps R (s.announce r length) := by
  unfold Service.announce
  cases length with
  | none => exact hR.keeps_tell s _
  | some n => exact hR.bind (hR.keeps_tell s _) fun _ => hR.keeps_tell s _

theorem keeps_archiveSize : Keeps R Service.archiveSize :=
  hR.bind hR.refl fun _ => hR.keeps_pure _

theorem keeps_append (octets : Octets) : Keeps R (Service.append octets) :=
  hR.bind hR.refl fun _ => hR.bind (hR.keeps_store _ _) fun _ s => hR.archive s _

theorem keeps_save (piece : Octets) : Keeps R (s.save piece) :=
  hR.bind (hR.keeps_append piece) fun _ => hR.bind hR.keeps_archiveSize fun _ => hR.keeps_tell s _

theorem keeps_flush : Keeps R Service.flush := hR.bind hR.refl fun _ => hR.keeps_store _ _

/-- The archive comes in pieces, and each of them is put by and told of. -/
theorem keeps_fetchArchive (ctx : CallContext) (r : Service.Repository) (reference : String) :
    Keeps R (s.fetchArchive ctx r reference) := by
  rw [Service.fetchArchive_eq]
  refine hR.bind (hR.keeps_resource s r _) fun u => hR.bind (hR.keeps_get _ _ _ _ _) fun response => ?_
  refine hR.bind (hR.keeps_announce s r _) fun _ => hR.bind ?_ fun _ =>
    hR.bind hR.keeps_flush fun _ => hR.keeps_tell s _
  exact hR.keeps_forPieces _ _ _ _ (hR.keeps_save s) _

theorem keeps_withArchive {act : Action Session Unit} (ha : Keeps R act) : Keeps R (Service.withArchive act) :=
  fun s => hR.trans (hR.archive s _) (hR.trans (ha _) (hR.archive _ _))

end Session.TransferFrame

namespace Session.WideFrame

variable {R : Session → Session → Prop} (hR : WideFrame R) (s : Service)
include hR

theorem keeps_unpack (destination : String) : Keeps R (s.unpack destination) := by
  intro σ
  rw [Service.unpack_apply]
  rcases (s.extractor σ.archiveName σ.archive destination).run.run σ.files with ⟨_ | _, files⟩
  · exact hR.files σ files
  · exact hR.trans (hR.files σ files) (hR.log _ _)

/-- A download works on its archive, on the files and on what is told, and on nothing else. -/
theorem keeps_download (ctx : CallContext) (t : Target) (destination : String) :
    Keeps R (s.download ctx t destination) := by
  unfold Service.download
  refine hR.bind (hR.keeps_repository t) fun r => hR.bind (hR.keeps_check _ _) fun _ => ?_
  refine hR.bind (hR.keeps_store _ _) fun _ => hR.keeps_withArchive ?_
  refine hR.bind (hR.keeps_store _ _) fun _ => hR.bind (hR.keeps_fetchArchive s ctx r t.reference) fun _ => ?_
  refine hR.bind hR.keeps_archiveSize fun size => hR.bind hR.refl fun s₁ => ?_
  refine hR.bind (hR.keeps_log _ _) fun _ => hR.bind (hR.keeps_check _ _) fun _ => ?_
  exact hR.bind (hR.keeps_unpack s destination) fun _ => hR.keeps_log _ _

end Session.WideFrame

/-! ## Calls -/

/-- A frame that does not look at what a listing works on. -/
structure Session.ListingFrame (R : Session → Session → Prop) : Prop extends Session.ReadingFrame R where
  cache : ∀ (s : Session) c, R s { s with cache := c }

/-- A frame that looks at nothing but the time, the remote, the requests and the records. -/
structure Session.FullFrame (R : Session → Session → Prop) : Prop
    extends Session.WideFrame R, Session.ListingFrame R

namespace Service

open Session

section

variable {R : Session → Session → Prop} (hR : ListingFrame R) (s : Service) (ctx : CallContext)
include hR

theorem refreshRefs_keeps (r : Repository) (url : String) : Keeps R (s.refreshRefs ctx r url) := by
  unfold refreshRefs
  refine hR.bind ((fetchRefs_reads s ctx r).keeps hR.toReadingFrame) fun names => ?_
  exact hR.bind (hR.keeps_log _ _) fun _ => hR.bind (fun σ => hR.cache σ _) fun _ => hR.keeps_pure _

theorem knownRefs_keeps (r : Repository) (url : String) : Keeps R (s.knownRefs ctx r url) := by
  unfold knownRefs
  refine hR.bind hR.refl fun σ => ?_
  cases σ.cache.getRefs url with
  | some names => exact hR.bind (hR.keeps_log _ _) fun _ => hR.keeps_pure _
  | none => exact refreshRefs_keeps hR s ctx r url

/-- The paths of a tree take up to three inquiries. -/
theorem fetchPaths_keeps (r : Repository) (t : Target) : Keeps R (s.fetchPaths ctx r t) := by
  unfold fetchPaths
  refine hR.bind (knownRefs_keeps hR s ctx r t.url) fun names => ?_
  split
  · exact hR.keeps_throw _
  refine hR.bind (fetchRoot_keeps hR.toReadingFrame s ctx r t.reference) fun root => ?_
  refine hR.bind ((fetchTree_reads s ctx r root.objectId).keeps hR.toReadingFrame) fun paths => ?_
  exact hR.bind (hR.keeps_log _ _) fun _ => hR.bind (fun σ => hR.cache σ _) fun _ => hR.keeps_pure _

theorem listTree_keeps (t : Target) (extensions : List String) : Keeps R (s.listTree ctx t extensions) := by
  unfold listTree
  refine hR.bind (hR.keeps_repository t) fun r => hR.bind hR.refl fun σ => ?_
  cases σ.cache.getTree t.url t.reference with
  | some paths => exact hR.bind (hR.keeps_log _ _) fun _ => hR.keeps_pure _
  | none => exact hR.bind (fetchPaths_keeps hR s ctx r t) fun _ => hR.keeps_pure _

theorem latestCommit_keeps (t : Target) : Keeps R (s.latestCommit ctx t) := by
  refine hR.bind (hR.keeps_repository t) fun r => ?_
  refine hR.bind (fetchRoot_keeps hR.toReadingFrame s ctx r t.reference) fun item => ?_
  exact hR.bind (hR.keeps_log _ _) fun _ => hR.keeps_pure _

end

/-- What all listings keep is kept by every call, if a download keeps it. -/
theorem perform_keeps_of_download {R : Session → Session → Prop} (hR : ListingFrame R) {s : Service}
    {ctx : CallContext} (hd : ∀ t destination, Keeps R (s.download ctx t destination)) (c : Call) :
    Keeps R (s.perform ctx c) := by
  cases c with
  | listRemote t => exact hR.bind (hR.keeps_repository t) fun r => refreshRefs_keeps hR s ctx r t.url
  | listTree t extensions => exact listTree_keeps hR s ctx t extensions
  | latestCommit t => exact latestCommit_keeps hR s ctx t
  | download t destination => exact hd t destination
  | removeCache t => exact hR.bind (fun σ => hR.cache σ _) fun _ => hR.keeps_log _ _

theorem perform_keeps {R : Session → Session → Prop} (hR : FullFrame R) (s : Service) (ctx : CallContext)
    (c : Call) : Keeps R (s.perform ctx c) :=
  perform_keeps_of_download hR.toListingFrame (hR.keeps_download s ctx) c

/-! ## Files -/

theorem files_listing : ListingFrame fun σ σ' => σ'.files = σ.files where
  refl _ := rfl
  trans h h' := h'.trans h
  log _ _ := rfl
  wait _ _ := rfl
  ask _ _ := rfl
  gain _ _ := rfl
  cache _ _ := rfl

theorem files_transfer : TransferFrame fun σ σ' => σ'.files = σ.files where
  toFrame := files_listing.toFrame
  archive _ _ := rfl
  progress _ _ := rfl

/-- A step that only touches files when it is answered, or when an archive cannot be unpacked. -/
def Spares {α : Type} (x : Action Session α) : Prop :=
  ∀ σ e, (x σ).1 = .error e → (∀ cause, e ≠ .extraction cause) → (x σ).2.files = σ.files

theorem Spares.of_keeps {α : Type} {x : Action Session α} (hx : Keeps (fun σ σ' => σ'.files = σ.files) x) :
    Spares x := fun σ _ _ _ => hx σ

/-- What comes before may not touch files at all. -/
theorem Spares.bind {α β : Type} {x : Action Session α} {f : α → Action Session β}
    (hx : Keeps (fun σ σ' => σ'.files = σ.files) x) (hf : ∀ a, Spares (f a)) : Spares (x >>= f) := by
  intro σ e he hne
  rcases hr : (x >>= f) σ with ⟨r, σ'⟩
  rw [hr] at he
  rcases bind_cases hr with ⟨a, σ₁, hxa, hfa⟩ | ⟨e', hxe, -⟩
  · have after := hf a σ₁ e (by rw [hfa]; exact he) hne
    rw [hfa] at after
    exact after.trans (hx.of_eq hxa)
  · exact hx.of_eq hxe

theorem unpack_cases (s : Service) (destination : String) (σ : Session) :
    (s.unpack destination σ).1 = .ok () ∨ ∃ cause, (s.unpack destination σ).1 = .error (.extraction cause) := by
  rw [unpack_apply]
  rcases (s.extractor σ.archiveName σ.archive destination).run.run σ.files with ⟨cause | _, files⟩
  · exact .inr ⟨cause, rfl⟩
  · exact .inl rfl

/-- What unpacks files fails only for want of a good archive, and nothing fails after it. -/
theorem unpack_spares (s : Service) (destination : String) (level : LogLevel) (text : String) :
    Spares (do
      s.unpack destination
      Action.log level text) := by
  intro σ e he hne
  have hu := s.unpack_cases destination σ
  rcases hr : s.unpack destination σ with ⟨e' | _, σ'⟩
  · rw [hr] at hu
    rw [bind_error hr] at he
    cases he
    obtain h | ⟨cause, h⟩ := hu
    · cases h
    · cases h
      exact absurd rfl (hne cause)
  · rw [bind_ok hr] at he
    cases he

/-- An archive is not one of the files. -/
theorem Spares.withArchive {act : Action Session Unit} (ha : Spares act) : Spares (withArchive act) := by
  intro σ e he hne
  rw [withArchive_apply] at he ⊢
  exact ha _ e he hne

/-- A download fails before it unpacks, or in unpacking. -/
theorem download_spares (s : Service) (ctx : CallContext) (t : Target) (destination : String) :
    Spares (s.download ctx t destination) := by
  have hT := files_transfer
  unfold download
  refine .bind (hT.keeps_repository t) fun r => .bind (hT.keeps_check _ _) fun _ => ?_
  refine .bind (hT.keeps_store _ _) fun _ => .withArchive ?_
  refine .bind (hT.keeps_store _ _) fun _ => .bind (hT.keeps_fetchArchive s ctx r t.reference) fun _ => ?_
  refine .bind hT.keeps_archiveSize fun size => .bind hT.refl fun σ => ?_
  refine .bind (hT.keeps_log _ _) fun _ => .bind (hT.keeps_check _ _) fun _ => ?_
  exact unpack_spares s destination _ _

/-- Files are only touched by a call that is answered, or that cannot unpack an archive. -/
theorem perform_spares (s : Service) (ctx : CallContext) (c : Call) : Spares (s.perform ctx c) := by
  have hL := files_listing
  cases c with
  | listRemote t =>
    exact .of_keeps (hL.bind (hL.keeps_repository t) fun r => refreshRefs_keeps hL s ctx r t.url)
  | listTree t extensions => exact .of_keeps (listTree_keeps hL s ctx t extensions)
  | latestCommit t => exact .of_keeps (latestCommit_keeps hL s ctx t)
  | download t destination => exact download_spares s ctx t destination
  | removeCache t => exact .of_keeps fun _ => rfl

end Service

end HostedGit
