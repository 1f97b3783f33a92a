/-
One call made twice, on two lines and perhaps with other credentials. Whatever it is, it comes out alike if all that it
may ask for does; nothing else that it does depends on the line or on the credentials.
-/
import HostedGit.Proofs.Service.Steps
import HostedGit.Proofs.Session.Line

namespace HostedGit

open HostedGit.Action Session

namespace Service

variable {α : Type} {J : Line → Line → Prop} {s : Service} {ctx : CallContext} {r : Repository}
  {k : Option Credentials}

/-! ## Steps that ask for nothing -/

theorem settleRoot_quiet (r : Repository) (reference : String) (items : List Payload.RootItem) :
    Quiet (settleRoot r reference items) := by
  rcases settleRoot_cases r reference items with ⟨root, -, -, h⟩ | ⟨-, h⟩
  · intro σ l
    rw [h, h]
  · intro σ l
    rw [h, h]

theorem remember_quiet (f : Cache → Cache) : Quiet (remember f) := fun _ _ => rfl

theorem store_quiet (step : String) (failure : Storage → Option String) : Quiet (store step failure) := by
  intro σ l
  rw [store_apply, store_apply]
  rfl

theorem tell_quiet (s : Service) (e : ProgressEvent) : Quiet (s.tell e) := by
  unfold tell
  split
  · exact fun _ _ => rfl
  · exact .pure _

theorem announce_quiet (s : Service) (r : Repository) (length : Option Nat) : Quiet (s.announce r length) := by
  unfold announce
  cases length with
  | none => exact s.tell_quiet _
  | some n => exact .bind (s.tell_quiet _) fun _ => s.tell_quiet _

theorem archiveSize_quiet : Quiet archiveSize := .get_bind (fun _ => .pure _) fun _ _ => rfl

theorem append_quiet (octets : Octets) : Quiet (append octets) :=
  .get_bind (fun _ => .bind (store_quiet _ _) fun _ _ _ => rfl) fun _ _ => rfl

theorem save_quiet (s : Service) (piece : Octets) : Quiet (s.save piece) :=
  .bind (append_quiet piece) fun _ => .bind archiveSize_quiet fun _ => s.tell_quiet _

theorem flush_quiet : Quiet flush := .get_bind (fun _ => store_quiet _ _) fun _ _ => rfl

/-- Unpacking sees the archive and the files, and these are not of a line. -/
theorem unpack_quiet (s : Service) (destination : String) : Quiet (s.unpack destination) := by
  intro σ l
  have same : (s.extractor (σ.on l).archiveName (σ.on l).archive destination).run.run (σ.on l).files =
      (s.extractor σ.archiveName σ.archive destination).run.run σ.files := rfl
  rw [unpack_apply, unpack_apply, same]
  rcases (s.extractor σ.archiveName σ.archive destination).run.run σ.files with ⟨_ | _, files⟩ <;> rfl

/-! ## What is asked for -/

/-- Whatever resource of a repository is asked for, it comes alike with its credentials and with others. -/
def ComesAlike (J : Line → Line → Prop) (s : Service) (ctx : CallContext) (r : Repository) (k : Option Credentials) :
    Prop :=
  ∀ (e : Endpoint) (u : Url) (step : String), e.url s.baseUrl r.locator = .ok u →
    Parallel J (s.client.get ctx u r.credentials step) (s.client.get ctx u k step)

/-- The address of a resource does not depend on credentials. -/
theorem resource_bind_parallel {e : Endpoint} {f f' : Url → Action Session α}
    (hf : ∀ u, e.url s.baseUrl r.locator = .ok u → Parallel J (f u) (f' u)) :
    Parallel J (s.resource r e >>= f) (s.resource ⟨r.locator, k⟩ e >>= f') := by
  intro σ l hl
  cases hu : e.url s.baseUrl r.locator with
  | ok u =>
    rw [bind_ok (resource_ok hu σ), bind_ok (resource_ok (r := ⟨r.locator, k⟩) hu (σ.on l))]
    exact hf u hu σ l hl
  | error cause =>
    rw [bind_error (resource_error hu σ), bind_error (resource_error (r := ⟨r.locator, k⟩) hu (σ.on l))]
    exact ⟨l, rfl, hl⟩

section

variable (h : ComesAlike J s ctx r k)
include h

theorem fetchRefs_parallel : Parallel J (s.fetchRefs ctx r) (s.fetchRefs ctx ⟨r.locator, k⟩) :=
  resource_bind_parallel fun u hu => .getDocument (h .refs u _ hu) _ _

theorem fetchTree_parallel (objectId : String) :
    Parallel J (s.fetchTree ctx r objectId) (s.fetchTree ctx ⟨r.locator, k⟩ objectId) :=
  resource_bind_parallel fun u hu => .getDocument (h (.tree objectId) u _ hu) _ _

theorem fetchRoot_parallel (reference : String) :
    Parallel J (s.fetchRoot ctx r reference) (s.fetchRoot ctx ⟨r.locator, k⟩ reference) := by
  rw [fetchRoot_eq, fetchRoot_eq]
  refine resource_bind_parallel fun u hu => .bind (.getDocument (h (.rootItem reference) u _ hu) _ _) fun items => ?_
  exact .of_quiet (settleRoot_quiet r reference items)

/-! ## References and trees -/

theorem refreshRefs_parallel (url : String) :
    Parallel J (s.refreshRefs ctx r url) (s.refreshRefs ctx ⟨r.locator, k⟩ url) := by
  refine .bind (fetchRefs_parallel h) fun names => .of_quiet ?_
  exact .bind (.log _ _) fun _ => .bind (remember_quiet _) fun _ => .pure _

/-- References that are remembered are remembered on every line. -/
theorem knownRefs_parallel (url : String) :
    Parallel J (s.knownRefs ctx r url) (s.knownRefs ctx ⟨r.locator, k⟩ url) := by
  intro σ l hl
  cases hc : σ.cache.getRefs url with
  | some names =>
    rw [knownRefs_of_some hc, knownRefs_of_some (σ := σ.on l) hc]
    exact ⟨l, rfl, hl⟩
  | none =>
    rw [knownRefs_of_none hc, knownRefs_of_none (σ := σ.on l) hc]
    exact refreshRefs_parallel h url σ l hl

/-- Each stage of a tree comes alike if the resource that it asks for does. -/
theorem fetchPaths_parallel {t t' : Target} (hu : t'.url = t.url) (hr : t'.reference = t.reference) :
    Parallel J (s.fetchPaths ctx r t) (s.fetchPaths ctx ⟨r.locator, k⟩ t') := by
  unfold fetchPaths
  rw [hu, hr]
  refine .bind (knownRefs_parallel h t.url) fun names => ?_
  cases names.contains t.reference with
  | false => exact .throw_bind _ _ _
  | true =>
    refine .bind (fetchRoot_parallel h t.reference) fun root => ?_
    refine .bind (fetchTree_parallel h root.objectId) fun paths => ?_
    exact .of_quiet (.bind (.log _ _) fun _ => .bind (remember_quiet _) fun _ => .pure _)

/-! ## Downloads -/

/-- The pieces of a body are stored and told of alike. -/
theorem fetchArchive_parallel (reference : String) :
    Parallel J (s.fetchArchive ctx r reference) (s.fetchArchive ctx ⟨r.locator, k⟩ reference) := by
  rw [fetchArchive_eq, fetchArchive_eq]
  refine resource_bind_parallel fun u hu => .bind (h (.download reference) u _ hu) fun response => .of_quiet ?_
  refine .bind (s.announce_quiet r _) fun _ => .bind (.forPieces ctx _ _ _ s.save_quiet _) fun _ => ?_
  exact .bind flush_quiet fun _ => s.tell_quiet _

end

/-- A temporary archive is on no line. -/
theorem withArchive_parallel {act act' : Action Session Unit} (ha : Parallel J act act') :
    Parallel J (withArchive act) (withArchive act') := by
  intro σ l hl
  obtain ⟨l', hx, hl'⟩ := ha { σ with archive := some [] } l hl
  have hx : act' { σ.on l with archive := some [] } = _ := hx
  rw [withArchive_apply, withArchive_apply, hx]
  exact ⟨l', rfl, hl'⟩

/-! ## Calls -/

/-- Two targets that differ in nothing but the credentials, and whatever is asked for about the one comes alike for
the other. -/
structure AskAlike (J : Line → Line → Prop) (s : Service) (ctx : CallContext) (t t' : Target) : Prop where
  url : t'.url = t.url
  reference : t'.reference = t.reference
  comes : ∀ l, Locator.parse t.url = .ok l →
    ComesAlike J s ctx ⟨l, Credentials.select t.credentials l.embedded⟩ (Credentials.select t'.credentials l.embedded)

section

variable {t t' : Target}

/-- Two targets of one URL name one repository, with the credentials of each. -/
theorem repository_bind_parallel (hu : t'.url = t.url) {f f' : Repository → Action Session α}
    (hf : ∀ l, Locator.parse t.url = .ok l → Parallel J (f ⟨l, Credentials.select t.credentials l.embedded⟩)
      (f' ⟨l, Credentials.select t'.credentials l.embedded⟩)) :
    Parallel J (repository t >>= f) (repository t' >>= f') := by
  intro σ l hl
  cases hp : Locator.parse t.url with
  | ok m =>
    rw [bind_ok (repository_of_ok hp σ), bind_ok (repository_of_ok (hu ▸ hp) (σ.on l))]
    exact hf m hp σ l hl
  | error cause =>
    rw [bind_error (repository_error hp σ), bind_error (repository_error (hu ▸ hp) (σ.on l))]
    exact ⟨l, rfl, hl⟩

variable (h : AskAlike J s ctx t t')
include h

theorem listRemote_parallel : Parallel J (s.listRemote ctx t) (s.listRemote ctx t') := by
  refine repository_bind_parallel h.url fun l hl => ?_
  rw [h.url]
  exact refreshRefs_parallel (h.comes l hl) t.url

theorem latestCommit_parallel : Parallel J (s.latestCommit ctx t) (s.latestCommit ctx t') := by
  refine repository_bind_parallel h.url fun l hl => ?_
  rw [h.url, h.reference]
  exact .bind (fetchRoot_parallel (h.comes l hl) t.reference) fun item => .of_quiet (.bind (.log _ _) fun _ => .pure _)

/-- A tree that is remembered is answered on every line. -/
theorem listTree_parallel (extensions : List String) :
    Parallel J (s.listTree ctx t extensions) (s.listTree ctx t' extensions) := by
  refine repository_bind_parallel h.url fun l hl σ line hJ => ?_
  rw [h.url, h.reference, bind_ok (get_apply σ), bind_ok (get_apply (σ.on line))]
  have same : (σ.on line).cache = σ.cache := rfl
  rw [same]
  cases σ.cache.getTree t.url t.reference with
  | some paths => exact Parallel.of_quiet (.bind (.log _ _) fun _ => .pure _) σ line hJ
  | none =>
    have fetched := fetchPaths_parallel (h.comes l hl) h.url h.reference
    exact Parallel.bind fetched (fun _ => .of_quiet (.pure _)) σ line hJ

theorem download_parallel (destination : String) :
    Parallel J (s.download ctx t destination) (s.download ctx t' destination) := by
  refine repository_bind_parallel h.url fun l hl => .bind (.of_quiet (.check ctx _)) fun _ => ?_
  refine .bind (.of_quiet (store_quiet _ _)) fun _ => withArchive_parallel ?_
  refine .bind (.of_quiet (store_quiet _ _)) fun _ => ?_
  rw [h.url, h.reference]
  refine .bind (fetchArchive_parallel (h.comes l hl) t.reference) fun _ => .of_quiet ?_
  refine .bind archiveSize_quiet fun size => .get_bind (fun σ => ?_) fun _ _ => rfl
  exact .bind (.log _ _) fun _ => .bind (.check ctx _) fun _ => .bind (s.unpack_quiet destination) fun _ => .log _ _

end

theorem removeCache_quiet (t : Target) : Quiet (removeCache t) := .bind (remember_quiet _) fun _ => .log _ _

/-- A call comes out alike on two lines, if whatever it asks for does. -/
theorem perform_parallel {c : Call} (h : AskAlike J s ctx c.target c.target) :
    Parallel J (s.perform ctx c) (s.perform ctx c) := by
  cases c with
  | listRemote t => exact listRemote_parallel h
  | listTree t extensions => exact listTree_parallel h extensions
  | latestCommit t => exact latestCommit_parallel h
  | download t destination => exact download_parallel h destination
  | removeCache t => exact .of_quiet (removeCache_quiet t)

/-- What whatever a call asks for keeps true of a line, the call keeps true of it. -/
theorem perform_line {I : Line → Prop} {c : Call} (h : ∀ l e u step, Locator.parse c.target.url = .ok l →
      Endpoint.url s.baseUrl l e = .ok u → ∀ σ : Session, I σ.line →
        I (s.client.get ctx u (Credentials.select c.target.credentials l.embedded) step σ).2.line)
    {σ : Session} (hσ : I σ.line) : I (s.perform ctx c σ).2.line := by
  refine parallel_self_iff.mp (perform_parallel ⟨rfl, rfl, ?_⟩) σ hσ
  intro l hl e u step hu
  exact parallel_self_iff.mpr (h l e u step hl hu)

end Service

end HostedGit
