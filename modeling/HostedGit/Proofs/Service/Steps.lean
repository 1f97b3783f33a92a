/-
How the steps of a call come out that ask for nothing: what a text names, where a resource lies, and what is
remembered already.
-/
import HostedGit.Proofs.Action
import HostedGit.Service

namespace HostedGit

open HostedGit.Action

namespace Service

/-! ## Repositories and resources -/

/-- Credentials of a call go before those that its text holds. -/
theorem repository_apply (t : Target) (σ : Session) :
    repository t σ = (match Locator.parse t.url with
      | .ok l => .ok ⟨l, Credentials.select t.credentials l.embedded⟩
      | .error e => .error (.urlParse e), σ) := by
  unfold repository
  cases Locator.parse t.url <;> rfl

theorem repository_error {t : Target} {e : LocatorError} (hl : Locator.parse t.url = .error e) (σ : Session) :
    repository t σ = (.error (.urlParse e), σ) := by
  rw [repository_apply, hl]

theorem repository_of_ok {t : Target} {l : Locator} (hl : Locator.parse t.url = .ok l) (σ : Session) :
    repository t σ = (.ok ⟨l, Credentials.select t.credentials l.embedded⟩, σ) := by
  rw [repository_apply, hl]

variable {s : Service} {ctx : CallContext} {r : Repository} {σ : Session}

theorem resource_apply (s : Service) (r : Repository) (e : Endpoint) (σ : Session) :
    s.resource r e σ = ((e.url s.baseUrl r.locator).mapError (.endpointBuild e.name), σ) := by
  unfold resource
  cases e.url s.baseUrl r.locator <;> rfl

theorem resource_error {e : Endpoint} {cause : UrlError} (hu : e.url s.baseUrl r.locator = .error cause)
    (σ : Session) : s.resource r e σ = (.error (.endpointBuild e.name cause), σ) := by
  rw [resource_apply, hu]
  rfl

theorem resource_ok {e : Endpoint} {u : Url} (hu : e.url s.baseUrl r.locator = .ok u) (σ : Session) :
    s.resource r e σ = (.ok u, σ) := by
  rw [resource_apply, hu]
  rfl

/-! ## Roots -/

/-- What becomes of the items of a reply. -/
def settleRoot (r : Repository) (reference : String) (items : List Payload.RootItem) :
    Action Session Payload.RootItem :=
  match items.head? with
  | some item => if item.commitId.isEmpty then fetchRoot.lacking r reference else return item
  | none => fetchRoot.lacking r reference

theorem fetchRoot_eq (s : Service) (ctx : CallContext) (r : Repository) (reference : String) :
    s.fetchRoot ctx r reference = (do
      let u ← s.resource r (.rootItem reference)
      let items ← s.client.getDocument ctx u r.credentials "get repository root item" "Azure items"
        Payload.decodeItems
      settleRoot r reference items) := rfl

/-- The first item is the root, and without a commit there is none. -/
theorem settleRoot_cases (r : Repository) (reference : String) (items : List Payload.RootItem) :
    (∃ root, items.head? = some root ∧ root.commitId ≠ "" ∧
      ∀ σ, settleRoot r reference items σ = (.ok root, σ)) ∨
    (∀ item, items.head? = some item → item.commitId = "") ∧
      ∀ σ, settleRoot r reference items σ = (.error (.incompleteData ("failed to get latest commit ID of '" ++
        r.locator.repository ++ "' at '" ++ reference ++ "'")), σ) := by
  unfold settleRoot
  cases items.head? with
  | none => exact .inr ⟨nofun, fun _ => rfl⟩
  | some item =>
    by_cases hc : item.commitId = ""
    · refine .inr ⟨fun _ h => by cases h; exact hc, fun σ => ?_⟩
      dsimp only
      rw [if_pos (by rw [hc]; rfl)]
      rfl
    · refine .inl ⟨item, rfl, hc, fun σ => ?_⟩
      dsimp only
      rw [if_neg (by simpa using hc)]
      rfl

/-! ## What is remembered -/

/-- References that are remembered are not asked for. -/
theorem knownRefs_of_some {url : String} {names : List String} (hc : σ.cache.getRefs url = some names) :
    s.knownRefs ctx r url σ =
      (.ok names, Journal.add ⟨.debug, "Reference cache hit for " ++ redact url⟩ σ) := by
  unfold knownRefs
  rw [bind_ok (get_apply σ)]
  rw [hc]
  rfl

theorem knownRefs_of_none {url : String} (hc : σ.cache.getRefs url = none) :
    s.knownRefs ctx r url σ = s.refreshRefs ctx r url σ := by
  unfold knownRefs
  rw [bind_ok (get_apply σ)]
  rw [hc]

variable {t : Target} {l : Locator} {extensions : List String}

/-- A tree that is remembered is not asked for, nor are the references. -/
theorem listTree_of_some {paths : List String} (hl : Locator.parse t.url = .ok l)
    (hc : σ.cache.getTree t.url t.reference = some paths) :
    s.listTree ctx t extensions σ = (.ok (PathFilter.select extensions paths),
      Journal.add ⟨.debug, "Tree cache hit for " ++ redact t.url ++ " at '" ++ t.reference ++ "'"⟩ σ) := by
  unfold listTree
  rw [bind_ok (repository_of_ok hl σ), bind_ok (get_apply σ)]
  rw [hc]
  rfl

/-- Only the paths that are selected are answered. -/
theorem listTree_of_none (hl : Locator.parse t.url = .ok l)
    (hc : σ.cache.getTree t.url t.reference = none) :
    s.listTree ctx t extensions σ =
      (s.fetchPaths ctx ⟨l, Credentials.select t.credentials l.embedded⟩ t >>= fun paths =>
        pure (PathFilter.select extensions paths)) σ := by
  unfold listTree
  rw [bind_ok (repository_of_ok hl σ), bind_ok (get_apply σ)]
  rw [hc]

/-- A reference that is not among the known ones is not asked for. -/
theorem fetchPaths_of_unlisted {names : List String} {σ' : Session}
    (hk : s.knownRefs ctx r t.url σ = (.ok names, σ')) (hn : t.reference ∉ names) :
    s.fetchPaths ctx r t σ = (.error (.referenceNotFound t.reference), σ') := by
  unfold fetchPaths
  rw [bind_ok hk, if_pos (by simpa using hn)]
  rfl

/-- One that is among them is asked for. -/
theorem fetchPaths_of_listed {names : List String} {σ' : Session}
    (hk : s.knownRefs ctx r t.url σ = (.ok names, σ')) (hn : t.reference ∈ names) :
    s.fetchPaths ctx r t σ = (do
      let root ← s.fetchRoot ctx r t.reference
      let paths ← s.fetchTree ctx r root.objectId
      Action.log .debug
        (redact t.url ++ " at '" ++ t.reference ++ "' has " ++ toString paths.length ++ " tree entries")
      remember (·.setTree t.url t.reference paths)
      return paths) σ' := by
  unfold fetchPaths
  rw [bind_ok hk, if_neg (by simpa using hn)]

/-! ## Downloads -/

/-- What is told of a transfer before its body. -/
def announce (s : Service) (r : Repository) (length : Option Nat) : Action Session Unit := do
  if let some n := length then s.tell (.length n)
  s.tell (.message ("Downloading " ++ r.locator.repository ++ "..."))

/-- Puts a piece by, and tells how much is there. -/
def save (s : Service) (piece : Octets) : Action Session Unit := do
  append piece
  s.tell (.position (← archiveSize))

/-- What is told, if transfers are told of. -/
def told (s : Service) (events : List ProgressEvent) : List ProgressEvent := if s.isTold then events else []

@[simp] theorem told_nil (s : Service) : s.told [] = [] := by
  unfold told
  split <;> rfl

theorem told_append (s : Service) (events events' : List ProgressEvent) :
    s.told (events ++ events') = s.told events ++ s.told events' := by
  unfold told
  split <;> rfl

theorem tell_apply (s : Service) (e : ProgressEvent) (σ : Session) :
    s.tell e σ = (.ok (), { σ with progress := σ.progress ++ s.told [e] }) := by
  unfold tell told
  split
  · rfl
  · rw [List.append_nil]
    rfl

/-- What is told before a body comes. -/
def heading (r : Repository) (length : Option Nat) : List ProgressEvent :=
  length.toList.map .length ++ [.message ("Downloading " ++ r.locator.repository ++ "...")]

/-- The length is told if the head tells it. -/
theorem announce_apply (s : Service) (r : Repository) (length : Option Nat) (σ : Session) :
    s.announce r length σ = (.ok (), { σ with progress := σ.progress ++ s.told (heading r length) }) := by
  unfold announce heading
  cases length with
  | none => exact s.tell_apply _ σ
  | some n =>
    refine (bind_ok (s.tell_apply (.length n) σ)).trans ((s.tell_apply _ _).trans ?_)
    rw [List.append_assoc, ← told_append]
    rfl

theorem fetchArchive_eq (s : Service) (ctx : CallContext) (r : Repository) (reference : String) :
    s.fetchArchive ctx r reference = (do
      let u ← s.resource r (.download reference)
      let response ← s.client.get ctx u r.credentials "download zip"
      s.announce r response.reply.length
      Client.forPieces ctx "download zip" response.limit response.reply.body.ending s.save response.reply.body.pieces
      flush
      s.tell (.finished ("Downloaded " ++ r.locator.repository))) := by
  unfold fetchArchive announce
  refine bind_congr fun u => bind_congr fun response => ?_
  cases response.reply.length with
  | none => rfl
  | some n => exact (bind_assoc _ _ _).symm

theorem store_apply (step : String) (failure : Storage → Option String) (σ : Session) :
    store step failure σ = (match failure σ.storage with
      | none => .ok ()
      | some cause => .error (.io step cause), σ) := by
  unfold store
  rw [bind_ok (get_apply σ)]
  cases failure σ.storage <;> rfl

theorem flush_apply (σ : Session) :
    flush σ = store "save HTTP response to a file" (·.flush (σ.archive.getD [])) σ := rfl

/-- However the step comes out, there is no archive afterwards. -/
theorem withArchive_apply (act : Action Session Unit) (σ : Session) :
    withArchive act σ = ((act { σ with archive := some [] }).1,
      { (act { σ with archive := some [] }).2 with archive := none }) := rfl

theorem withArchive_cases {act : Action Session Unit} {σ σ' : Session} {out : Except Error Unit}
    (h : withArchive act σ = (out, σ')) :
    ∃ σ₁, act { σ with archive := some [] } = (out, σ₁) ∧ σ' = { σ₁ with archive := none } := by
  rw [withArchive_apply] at h
  cases h
  exact ⟨_, rfl, rfl⟩

/-- Files are left as the archive has made them, also where it fails. -/
theorem unpack_apply (s : Service) (destination : String) (σ : Session) :
    s.unpack destination σ =
      match (s.extractor σ.archiveName σ.archive destination).run.run σ.files with
      | (.ok count, files) => (.ok (), Journal.add
          ⟨.debug, "Extracted " ++ toString count ++ " entries into " ++ destination⟩ { σ with files })
      | (.error e, files) => (.error (.extraction e), { σ with files }) := by
  unfold unpack
  rw [bind_ok (get_apply σ)]
  rcases (s.extractor σ.archiveName σ.archive destination).run.run σ.files with ⟨_ | _, files⟩ <;> rfl

/-! ## Calls -/

theorem perform_of_unparsed {c : Call} {cause : LocatorError} (hl : Locator.parse c.target.url = .error cause)
    (hc : ∀ t, c ≠ .removeCache t) (σ : Session) :
    s.perform ctx c σ = (.error (.urlParse cause), σ) := by
  cases c with
  | removeCache t => exact absurd rfl (hc t)
  | _ => exact bind_error (repository_error hl σ)

end Service

end HostedGit
