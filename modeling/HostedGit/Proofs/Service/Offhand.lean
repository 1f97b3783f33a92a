/-
What a call can still answer when all its requests come to nothing: what needs no exchange with the remote.
A tree that is remembered is all that can be had then; everything else is an error.
-/
import HostedGit.Proofs.Service.Steps
import HostedGit.Proofs.Time.Ending

namespace HostedGit

open HostedGit.Action

namespace Service

variable (s : Service)

/-- Results that nothing has to be asked for. -/
inductive Offhand (cache : Cache) : (c : Call) → Except Error c.Answer → Prop
  /-- The text names no repository. -/
  | unparsed {c : Call} {cause : LocatorError} (h : Locator.parse c.target.url = .error cause) :
      Offhand cache c (.error (.urlParse cause))
  /-- The base URL has no place for what would have to be asked for. -/
  | unplaced {c : Call} {l : Locator} {e : Endpoint} {cause : UrlError}
      (hl : Locator.parse c.target.url = .ok l) (he : e.url s.baseUrl l = .error cause) :
      Offhand cache c (.error (.endpointBuild e.name cause))
  /-- The tree is remembered. -/
  | remembered {t : Target} {extensions paths : List String} (h : cache.getTree t.url t.reference = some paths) :
      Offhand cache (.listTree t extensions) (.ok (PathFilter.select extensions paths))
  /-- The references are remembered, and the one that is meant is not among them. -/
  | unlisted {t : Target} {extensions names : List String} (h : cache.getRefs t.url = some names)
      (hn : t.reference ∉ names) : Offhand cache (.listTree t extensions) (.error (.referenceNotFound t.reference))
  /-- Something is to be forgotten. -/
  | forgotten {t : Target} : Offhand cache (.removeCache t) (.ok ())

theorem Offhand.remembered_of_ok {s : Service} {cache : Cache} {t : Target} {extensions answer : List String}
    (h : s.Offhand cache (.listTree t extensions) (.ok answer)) :
    ∃ paths, cache.getTree t.url t.reference = some paths ∧ answer = PathFilter.select extensions paths := by
  cases h with
  | remembered h => exact ⟨_, h, rfl⟩

theorem Offhand.not_ok {s : Service} {cache : Cache} {c : Call} {answer : c.Answer}
    (hc : ∀ t, c ≠ .removeCache t) (ht : ∀ t extensions, c ≠ .listTree t extensions) :
    ¬ s.Offhand cache c (.ok answer) := by
  intro h
  cases h with
  | remembered h => exact ht _ _ rfl
  | forgotten => exact hc _ rfl

/-- Whatever is asked for about a repository under a context, from what a session is now, comes to nothing. -/
def Silenced (ctx : CallContext) (r : Repository) (bad : Error → Prop) (σ : Session) : Prop :=
  ∀ σ' : Session, σ'.timeline = σ.timeline → σ'.remote = σ.remote → ∀ (e : Endpoint) u step,
    e.url s.baseUrl r.locator = .ok u → Fails bad (s.client.get ctx u r.credentials step) σ'

/-- The error of an inquiry that came to nothing, or for which there is no place. -/
def Excuse (l : Locator) (bad : Error → Prop) (e : Error) : Prop :=
  bad e ∨ ∃ (ep : Endpoint) (cause : UrlError), ep.url s.baseUrl l = .error cause ∧ e = .endpointBuild ep.name cause

variable {s} {ctx : CallContext} {r : Repository} {bad : Error → Prop} {σ : Session}

theorem resource_bind_fails {α : Type} {e : Endpoint} {f : Url → Action Session α}
    (hf : ∀ u, e.url s.baseUrl r.locator = .ok u → Fails bad (f u) σ) :
    Fails (s.Excuse r.locator bad) (s.resource r e >>= f) σ := by
  cases hu : e.url s.baseUrl r.locator with
  | ok u => exact ((hf u hu).of_eq (bind_ok (resource_ok hu σ))).mono fun _ => .inl
  | error cause => exact ⟨_, σ, bind_error (resource_error hu σ), .inr ⟨e, cause, hu, rfl⟩⟩

theorem store_bind_fails {α : Type} {step : String} {failure : Storage → Option String}
    {f : Unit → Action Session α} (hio : ∀ cause, bad (.io step cause)) (hf : Fails bad (f ()) σ) :
    Fails bad (store step failure >>= f) σ := by
  have stored := store_apply step failure σ
  cases hc : failure σ.storage with
  | none =>
    rw [hc] at stored
    exact hf.of_eq (bind_ok stored)
  | some cause =>
    rw [hc] at stored
    exact ⟨_, σ, bind_error stored, hio cause⟩

theorem withArchive_fails {act : Action Session Unit} (h : Fails bad act { σ with archive := some [] }) :
    Fails bad (withArchive act) σ := by
  obtain ⟨e, σ', hx, he⟩ := h
  exact ⟨e, { σ' with archive := none }, by rw [withArchive_apply, hx], he⟩

section

variable (h : s.Silenced ctx r bad σ)
include h

theorem fetchRefs_fails : Fails (s.Excuse r.locator bad) (s.fetchRefs ctx r) σ :=
  resource_bind_fails fun u hu => (h σ rfl rfl .refs u _ hu).bind _

theorem fetchRoot_fails (reference : String) : Fails (s.Excuse r.locator bad) (s.fetchRoot ctx r reference) σ :=
  resource_bind_fails fun u hu => ((h σ rfl rfl (.rootItem reference) u _ hu).bind _).bind _

theorem fetchArchive_fails (reference : String) :
    Fails (s.Excuse r.locator bad) (s.fetchArchive ctx r reference) σ :=
  resource_bind_fails fun u hu => (h σ rfl rfl (.download reference) u _ hu).bind _

/-- A listing fails, unless the references are remembered and lack the one that is meant. -/
theorem fetchPaths_cases (t : Target) :
    Fails (s.Excuse r.locator bad) (s.fetchPaths ctx r t) σ ∨ ∃ names σ', σ.cache.getRefs t.url = some names ∧
      t.reference ∉ names ∧ s.fetchPaths ctx r t σ = (.error (.referenceNotFound t.reference), σ') := by
  cases hc : σ.cache.getRefs t.url with
  | none =>
    have known : Fails (s.Excuse r.locator bad) (s.knownRefs ctx r t.url) σ :=
      ((fetchRefs_fails h).bind _).of_eq (knownRefs_of_none hc)
    exact .inl (known.bind _)
  | some names =>
    let σ' : Session := Journal.add ⟨.debug, "Reference cache hit for " ++ redact t.url⟩ σ
    have known : s.knownRefs ctx r t.url σ = (.ok names, σ') := knownRefs_of_some hc
    by_cases hn : t.reference ∈ names
    · have silenced : s.Silenced ctx r bad σ' := fun σ'' ht hr => h σ'' ht hr
      exact .inl (((fetchRoot_fails silenced t.reference).bind _).of_eq (fetchPaths_of_listed known hn))
    · exact .inr ⟨names, σ', rfl, hn, fetchPaths_of_unlisted known hn⟩

theorem download_fails {t : Target} {destination : String} (hbad : ∀ e : Error, e.isInterruption → bad e)
    (hio : ctx.Alive σ.timeline → ∀ step cause, bad (.io step cause)) (hr : repository t σ = (.ok r, σ)) :
    Fails (s.Excuse r.locator bad) (s.download ctx t destination) σ := by
  have checked : Session.check ctx "download zip" σ = (ctx.check σ.timeline "download zip", σ) := rfl
  have read : s.download ctx t destination σ = _ := bind_ok hr
  refine Fails.of_eq ?_ read
  -- the context is looked at before anything is asked for
  cases hc : ctx.check σ.timeline "download zip" with
  | error e =>
    rw [hc] at checked
    exact ⟨e, σ, bind_error checked, .inl (hbad e (CallContext.isInterruption_of_check hc))⟩
  | ok _ =>
    rw [hc] at checked
    have alive : ctx.Alive σ.timeline := CallContext.check_eq_ok_iff.mp hc
    have hio : ∀ step cause, s.Excuse r.locator bad (.io step cause) := fun step cause => .inl (hio alive step cause)
    have silenced : s.Silenced ctx r bad { σ with archive := some [] } := fun σ' ht hm => h σ' ht hm
    refine Fails.of_eq (store_bind_fails (hio _) (withArchive_fails ?_)) (bind_ok checked)
    exact store_bind_fails (hio _) ((fetchArchive_fails silenced t.reference).bind _)

end

theorem offhand_of_excuse {c : Call} {l : Locator} (hl : Locator.parse c.target.url = .ok l)
    (h : Fails (s.Excuse l bad) (s.perform ctx c) σ) :
    s.Offhand σ.cache c (s.perform ctx c σ).1 ∨ Fails bad (s.perform ctx c) σ := by
  obtain ⟨e, σ', hx, he | ⟨ep, cause, hu, rfl⟩⟩ := h
  · exact .inr ⟨e, σ', hx, he⟩
  · rw [hx]
    exact .inl (.unplaced hl hu)

/-- If all that a call may ask for comes to nothing, the call does so too, unless nothing has to be asked for. -/
theorem perform_of_silenced {c : Call} (hbad : ∀ e : Error, e.isInterruption → bad e)
    (hio : ctx.Alive σ.timeline → ∀ step cause, bad (.io step cause))
    (h : ∀ l, Locator.parse c.target.url = .ok l →
      s.Silenced ctx ⟨l, Credentials.select c.target.credentials l.embedded⟩ bad σ) :
    s.Offhand σ.cache c (s.perform ctx c σ).1 ∨ Fails bad (s.perform ctx c) σ := by
  by_cases hc : ∃ t, c = .removeCache t
  · obtain ⟨t, rfl⟩ := hc
    exact .inl .forgotten
  have hc : ∀ t, c ≠ .removeCache t := fun t ht => hc ⟨t, ht⟩
  cases hl : Locator.parse c.target.url with
  | error cause =>
    rw [perform_of_unparsed hl hc]
    exact .inl (.unparsed hl)
  | ok l =>
    have h := h l hl
    have named := repository_of_ok hl σ
    cases c with
    | listRemote t => exact offhand_of_excuse hl (((fetchRefs_fails h).bind _).of_eq (bind_ok named))
    | latestCommit t =>
      exact offhand_of_excuse hl (((fetchRoot_fails h t.reference).bind _).of_eq (bind_ok named))
    | download t destination => exact offhand_of_excuse hl (download_fails h hbad hio named)
    | listTree t extensions =>
      cases ht : σ.cache.getTree t.url t.reference with
      | some paths =>
        have hx : (s.perform ctx (.listTree t extensions) σ).1 = .ok (PathFilter.select extensions paths) :=
          congrArg Prod.fst (listTree_of_some hl ht)
        rw [hx]
        exact .inl (.remembered ht)
      | none =>
        rcases fetchPaths_cases h t with fails | ⟨names, σ', hr, hn, hx⟩
        · exact offhand_of_excuse hl ((fails.bind _).of_eq (listTree_of_none hl ht))
        · have hx : (s.perform ctx (.listTree t extensions) σ).1 = .error (.referenceNotFound t.reference) :=
            congrArg Prod.fst ((listTree_of_none hl ht).trans (bind_error hx))
          rw [hx]
          exact .inl (.unlisted hr hn)
    | removeCache t => exact absurd rfl (hc t)

end Service

end HostedGit
