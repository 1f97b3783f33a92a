/-
Calls that are interrupted. A call under a context that ends while something is still to be asked for, or is
waited for, ends with the error that says so; it asks for nothing more, and leaves behind what was there at
that moment: no tree is remembered, no files are touched, and of the references only ones that had come in
full. What needs no exchange with the remote is answered under any context.
-/
import HostedGit.Proofs.Service.Offhand
import HostedGit.Proofs.Service.Remembered
import HostedGit.Proofs.Session.Interrupted

namespace HostedGit

open HostedGit.Action Session

namespace Service

variable (s : Service)

/-! ## What is asked for -/

/-- The spans in which a resource of a repository is asked for. -/
def Asks (r : Repository) (e : Endpoint) (step : String) (ws : List Span) : Prop :=
  ∃ u, e.url s.baseUrl r.locator = .ok u ∧
    s.client.Inquiry step (Client.authorization? u r.credentials) u ws

/-- The sections of a call about a repository: what it asks for, one after the other. -/
def sections (r : Repository) : Call → List (List Span → Prop)
  | .listRemote _ => [s.Asks r .refs "list refs"]
  | .listTree t _ =>
    [s.Asks r .refs "list refs", s.Asks r (.rootItem t.reference) "get repository root item",
      fun ws => ∃ objectId, s.Asks r (.tree objectId) "list tree" ws]
  | .latestCommit t => [s.Asks r (.rootItem t.reference) "get repository root item"]
  | .download t _ =>
    [Checked "download zip", s.Asks r (.download t.reference) "download zip", Checked "extract zip"]
  | .removeCache _ => []

/-- The repository that a target names, if it names one. -/
def named? (t : Target) : Option Repository :=
  (Locator.parse t.url).toOption.map fun l => ⟨l, Credentials.select t.credentials l.embedded⟩

/-- The spans of a call: those of its sections, if it is about a repository at all. -/
def Takes (c : Call) (ws : List Span) : Prop :=
  Maybe (fun ws => ∃ r ∈ named? c.target, Sectioned (s.sections r c) ws) ws

/-- Where a target names no repository, there is nothing to be interrupted. -/
theorem repository_bind_interruptible {α : Type} {t : Target} {P : Repository → List Span → Prop}
    {f : CallContext → Repository → Action Session α} (hf : ∀ r, Interruptible (P r) fun ctx => f ctx r) :
    Interruptible (Maybe fun ws => ∃ r ∈ named? t, P r ws) fun ctx => repository t >>= f ctx := by
  have hn : named? t = (Locator.parse t.url).toOption.map fun l =>
    ⟨l, Credentials.select t.credentials l.embedded⟩ := rfl
  unfold repository
  cases hl : Locator.parse t.url with
  | ok l =>
    rw [hl] at hn
    exact (hf _).mono fun ws h => .inr ⟨_, hn, h⟩
  | error e => exact .of_idles (.inl rfl) (.throw rfl)

/-- Nor where a resource has no address. -/
theorem resource_bind_interruptible {α : Type} {r : Repository} {e : Endpoint} {P : Url → List Span → Prop}
    {f : CallContext → Url → Action Session α} (hf : ∀ u, Interruptible (P u) fun ctx => f ctx u) :
    Interruptible (Maybe fun ws => ∃ u, e.url s.baseUrl r.locator = .ok u ∧ P u ws) fun ctx =>
      s.resource r e >>= f ctx := by
  unfold resource
  cases hu : e.url s.baseUrl r.locator with
  | ok u => exact (hf u).mono fun ws h => .inr ⟨u, rfl, h⟩
  | error cause => exact .of_idles (.inl rfl) (.throw rfl)

/-! ## Inquiries -/

theorem fetchRefs_interruptible (r : Repository) :
    Interruptible (Maybe (s.Asks r .refs "list refs")) fun ctx => s.fetchRefs ctx r :=
  s.resource_bind_interruptible fun u => s.client.getDocument_interruptible _ u _ _ _

theorem fetchTree_interruptible (r : Repository) (objectId : String) :
    Interruptible (Maybe (s.Asks r (.tree objectId) "list tree")) fun ctx => s.fetchTree ctx r objectId :=
  s.resource_bind_interruptible fun u => s.client.getDocument_interruptible _ u _ _ _

theorem fetchRoot_interruptible (r : Repository) (reference : String) :
    Interruptible (Maybe (s.Asks r (.rootItem reference) "get repository root item")) fun ctx =>
      s.fetchRoot ctx r reference := by
  simp only [fetchRoot_eq]
  refine s.resource_bind_interruptible fun u => ?_
  refine (s.client.getDocument_interruptible _ u _ _ _).bind_idles fun items => ?_
  intro σ
  rcases settleRoot_cases r reference items with ⟨root, -, -, h⟩ | ⟨-, h⟩
  · rw [h]
    exact Idles.pure root σ
  · rw [h]
    exact Idles.throw rfl σ

theorem surely_remember (f : Cache → Cache) : Surely (remember f) := fun _ => ⟨_, _, rfl, rfl, rfl⟩

theorem refreshRefs_interruptible (r : Repository) (url : String) :
    Interruptible (Maybe (s.Asks r .refs "list refs")) fun ctx => s.refreshRefs ctx r url :=
  (s.fetchRefs_interruptible r).bind_idles fun _ =>
    (Surely.log _ _).idles.bind fun _ => (surely_remember _).idles.bind fun _ => .pure _

theorem knownRefs_interruptible (r : Repository) (url : String) :
    Interruptible (Maybe (s.Asks r .refs "list refs")) fun ctx => s.knownRefs ctx r url := by
  unfold knownRefs
  refine .surely_bind .get fun σ => ?_
  cases σ.cache.getRefs url with
  | some names => exact .of_idles (.inl rfl) ((Surely.log _ _).idles.bind fun _ => .pure _)
  | none => exact s.refreshRefs_interruptible r url

/-- A tree is asked for in three sections, the first of them empty where references are known. -/
theorem fetchPaths_interruptible (r : Repository) (t : Target) (extensions : List String) :
    Interruptible (Sectioned (s.sections r (.listTree t extensions))) fun ctx => s.fetchPaths ctx r t := by
  unfold fetchPaths
  refine (s.knownRefs_interruptible r t.url).section_bind fun names => ?_
  split
  · exact .of_idles (Sectioned.nil _) (.throw rfl)
  refine (s.fetchRoot_interruptible r t.reference).section_bind fun root => .sole ?_
  have paths := (s.fetchTree_interruptible r root.objectId).mono
    fun ws h => h.imp_right fun h => (⟨root.objectId, h⟩ : ∃ id, s.Asks r (.tree id) "list tree" ws)
  exact paths.bind_idles fun _ =>
    (Surely.log _ _).idles.bind fun _ => (surely_remember _).idles.bind fun _ => .pure _

theorem listTree_interruptible (t : Target) (extensions : List String) :
    Interruptible (s.Takes (.listTree t extensions)) fun ctx => s.listTree ctx t extensions := by
  refine repository_bind_interruptible fun r => .surely_bind .get fun σ => ?_
  cases σ.cache.getTree t.url t.reference with
  | some paths => exact .of_idles (Sectioned.nil _) ((Surely.log _ _).idles.bind fun _ => .pure _)
  | none => exact (s.fetchPaths_interruptible r t extensions).bind_idles fun _ => .pure _

/-! ## Downloads -/

theorem surely_tell (e : ProgressEvent) : Surely (s.tell e) := by
  unfold tell
  split <;> exact fun _ => ⟨_, _, rfl, rfl, rfl⟩

theorem surely_announce (r : Repository) (length : Option Nat) : Surely (s.announce r length) := by
  unfold announce
  cases length with
  | none => exact s.surely_tell _
  | some n => exact (s.surely_tell _).bind fun _ => s.surely_tell _

theorem surely_archiveSize : Surely archiveSize := fun _ => ⟨_, _, rfl, rfl, rfl⟩

theorem idles_store (step : String) (failure : Storage → Option String) : Idles (store step failure) := by
  refine Surely.get.idles.bind fun σ => ?_
  cases failure σ.storage with
  | none => exact .pure _
  | some cause => exact .throw rfl

/-- Between two pieces of a body, nothing is waited for. -/
theorem idles_save (piece : Octets) : Idles (s.save piece) := by
  have appended : Idles (append piece) := Surely.get.idles.bind fun _ => (idles_store _ _).bind fun _ σ =>
    ⟨⟨rfl, rfl⟩, nofun⟩
  exact appended.bind fun _ => (surely_archiveSize.bind fun _ => s.surely_tell _).idles

theorem idles_flush : Idles flush := Surely.get.idles.bind fun _ => idles_store _ _

/-- The pieces of a body are waited for in the section in which it is asked for. -/
theorem fetchArchive_interruptible (r : Repository) (reference : String) :
    Interruptible (Maybe (s.Asks r (.download reference) "download zip")) fun ctx =>
      s.fetchArchive ctx r reference := by
  simp only [fetchArchive_eq]
  refine s.resource_bind_interruptible fun u => ?_
  refine (s.client.get_interruptible _ u _).bind (Q := Client.Named "download zip") (fun response => ?_)
    (fun _ h => h) fun ws vs h hv => h.append hv
  refine .surely_bind (s.surely_announce r _) fun _ => ?_
  exact (Client.forPieces_interruptible _ _ _ s.idles_save _).bind_idles fun _ =>
    idles_flush.bind fun _ => (s.surely_tell _).idles

/-- Unpacking waits for nothing, and its errors are no interruptions. -/
theorem idles_unpack (destination : String) : Idles (s.unpack destination) := by
  intro σ
  rw [unpack_apply]
  rcases (s.extractor σ.archiveName σ.archive destination).run.run σ.files with ⟨e | _, files⟩
  · exact ⟨⟨rfl, rfl⟩, fun e' h => by cases h; rfl⟩
  · exact ⟨⟨rfl, rfl⟩, nofun⟩

/-- A temporary archive goes with an interruption as it does with any other end. -/
theorem withArchive_interruptible {P : List Span → Prop} {act : CallContext → Action Session Unit}
    (ha : Interruptible P act) : Interruptible P fun ctx => withArchive (act ctx) := by
  intro σ
  obtain ⟨ws, whole, hP, hcourse, hr, ho⟩ := ha { σ with archive := some [] }
  refine ⟨ws, (whole.1, { whole.2 with archive := none }), hP, ?_, hr, fun ctx => ?_⟩
  · have before : σ.Idle { σ with archive := some [] } := ⟨rfl, rfl⟩
    have after : whole.2.Idle { whole.2 with archive := none } := ⟨rfl, rfl⟩
    exact (hcourse.of_idle before).idle_right after
  · have ends := withArchive_apply (act ctx) σ
    rcases ho ctx with ⟨hw, h⟩ | ⟨e, σ', hc, h⟩
    · rw [h] at ends
      exact .inl ⟨hw, ends⟩
    · rw [h] at ends
      exact .inr ⟨e, { σ' with archive := none }, hc.withArchive none, ends⟩

/-- A download is asked for in a section between two looks at the context. -/
theorem download_interruptible (t : Target) (destination : String) :
    Interruptible (s.Takes (.download t destination)) fun ctx => s.download ctx t destination := by
  refine repository_bind_interruptible fun r => ?_
  refine ((Interruptible.check _).mono fun _ => .inr).section_bind fun _ => ?_
  refine .idles_bind (Sectioned.nil _) (idles_store _ _) fun _ => withArchive_interruptible ?_
  refine .idles_bind (Sectioned.nil _) (idles_store _ _) fun _ => ?_
  refine (s.fetchArchive_interruptible r t.reference).section_bind fun _ => ?_
  refine .surely_bind surely_archiveSize fun size => .surely_bind .get fun σ => .surely_bind (.log _ _) fun _ => ?_
  refine .sole (((Interruptible.check _).mono fun _ => .inr).bind_idles fun _ => ?_)
  exact (s.idles_unpack destination).bind fun _ => (Surely.log _ _).idles

/-! ## Calls -/

/-- Every call is interrupted in one of its own sections, or in none. -/
theorem perform_interruptible (c : Call) : Interruptible (s.Takes c) fun ctx => s.perform ctx c := by
  cases c with
  | listRemote t => exact repository_bind_interruptible fun r => (s.refreshRefs_interruptible r t.url).sole
  | listTree t extensions => exact s.listTree_interruptible t extensions
  | latestCommit t =>
    refine repository_bind_interruptible fun r => .sole ?_
    exact (s.fetchRoot_interruptible r t.reference).bind_idles fun item =>
      (Surely.log _ _).idles.bind fun _ => .pure _
  | download t destination => exact s.download_interruptible t destination
  | removeCache t => exact .of_idles (.inl rfl) fun σ => ⟨⟨rfl, rfl⟩, nofun⟩

/-! ## Cuts -/

/-- What a call comes to that its context cuts in a span: the call asks for nothing more, its result says that
the context is over, and it leaves everything as it was but references that came in full before. -/
structure Clean (σ : Session) (c : Call) (ctx : CallContext) (w : Span)
    (cut : Except Error c.Answer × Session) : Prop where
  ended : ¬ ctx.Alive w.before.timeline ∧ cut.1 = .error (ctx.ending w.before.timeline w.step) ∧
      cut.2.requests = w.before.requests ∨
    ∃ m, ctx.EndsAt w.before.timeline m ∧ m.nanos < w.ends.nanos ∧
      cut.1 = .error (ctx.ending (w.before.timeline.wait m) w.step) ∧
      cut.2.requests = w.begun.requests ∧ cut.2.timeline = w.before.timeline.wait m
  files : cut.2.files = σ.files
  trees : ∀ url reference, cut.2.cache.getTree url reference = σ.cache.getTree url reference
  refs : ∀ url, cut.2.cache.getRefs url = σ.cache.getRefs url ∨
    url = c.target.url ∧ ∃ d ∈ cut.2.documents.drop σ.documents.length,
      d.refs? = cut.2.cache.getRefs url ∧ d.refs?.isSome

/-- A call takes the same course under all contexts that outlast it, in spans in which it asks for one thing
after the other; if it asks for nothing, neither does its result need anything. Any other context cuts the
course in the first span that it does not outlast, and the call ends cleanly there. -/
theorem interruption_is_clean (s : Service) (c : Call) (σ : Session) :
    ∃ ws whole, Course σ ws whole.2 ∧ s.Takes c ws ∧ Uninterrupted whole.1 ∧
      (ws = [] → s.Offhand σ.cache c whole.1) ∧
      ∀ ctx, ((∀ w ∈ ws, w.Outlasted ctx) ∧ s.perform ctx c σ = whole) ∨
        ∃ earlier w later, ws = earlier ++ w :: later ∧ (∀ v ∈ earlier, v.Outlasted ctx) ∧
          Clean σ c ctx w (s.perform ctx c σ) := by
  obtain ⟨ws, whole, takes, course, uninterrupted, outcome⟩ := s.perform_interruptible c σ
  refine ⟨ws, whole, course, takes, uninterrupted, ?_, fun ctx => ?_⟩
  · rintro rfl
    -- without a span not even a context that is over from the first makes a difference
    let ctx : CallContext := ⟨⟨0⟩, some σ.timeline.now⟩
    have lapsed : ¬ ctx.Alive σ.timeline := fun h => Nat.lt_irrefl _ (h.early _ rfl)
    rcases outcome ctx with ⟨-, same⟩ | ⟨e, σ', ⟨earlier, w, later, hws, -⟩, -⟩
    · have silenced : ∀ r, s.Silenced ctx r (·.isInterruption = true) σ := fun r σ' ht _ e u step _ =>
        s.client.get_of_over step u (by rwa [ht]) r.credentials
      dsimp only at same
      rw [← same] at uninterrupted ⊢
      have lapse := perform_of_silenced (s := s) (c := c) (fun _ h => h) (fun h => absurd h lapsed)
        fun _ _ => silenced _
      rcases lapse with offhand | ⟨e, σ', hx, he⟩
      · exact offhand
      · rw [hx] at uninterrupted
        rw [uninterrupted e rfl] at he
        cases he
    · simp at hws
  · rcases outcome ctx with ⟨outlasted, same⟩ | ⟨e, σ', ⟨earlier, w, later, hws, outlasted, cut⟩, hx⟩
    · exact .inl ⟨outlasted, same⟩
    right
    refine ⟨earlier, w, later, hws, outlasted, ?_⟩
    have failed : (s.perform ctx c σ).1 = .error e := congrArg Prod.fst hx
    have spared := perform_spares s ctx c σ e failed fun cause he => by
      have := cut.isInterruption
      rw [he] at this
      cases this
    obtain ⟨trees, refs⟩ := perform_error s ctx σ failed
    refine ⟨?_, spared, trees, refs⟩
    dsimp only at hx
    rw [hx]
    cases cut with
    | unsent h ht => exact .inl ⟨h, rfl, rfl⟩
    | pending h hm => exact .inr ⟨_, h, hm, rfl, rfl, rfl⟩

end Service

end HostedGit
