/-
Interruptions. Whatever is done with a session under a context takes a course: spans in which something is
waited for, and between them neither does time pass nor is anything asked for. A context that outlasts all
the spans makes no difference. One that does not cuts the course in the first span that it does not outlast:
before the span, if it is over by then, and otherwise at the moment at which it ends; what is there of the
session is then left as it was at that moment.
-/
import HostedGit.Proofs.Session.Frame
import HostedGit.Proofs.Time.Ending

namespace HostedGit

open HostedGit.Action

/-- An outcome that is not due to a context. -/
def Uninterrupted {α : Type} (r : Except Error α) : Prop := ∀ e, r = .error e → e.isInterruption = false

namespace Session

/-! ## Courses -/

/-- A stretch of time in which something is waited for: what is being done; the session before it, once it
has begun, and after it; and the moment at which what is waited for is there. -/
structure Span where
  step : String
  before : Session
  begun : Session
  after : Session
  ends : Instant

/-- To begin a span takes no time and makes one request at most, and none is made in it. -/
structure Span.Proper (w : Span) : Prop where
  timeline : w.begun.timeline = w.before.timeline
  sent : w.begun.requests = w.before.requests ∨ ∃ q, w.begun.requests = w.before.requests ++ [q]
  requests : w.after.requests = w.begun.requests
  now : w.after.timeline.now = w.before.timeline.now.later w.ends

/-- Neither has time passed nor has anything been asked for. -/
structure Idle (s s' : Session) : Prop where
  timeline : s'.timeline = s.timeline
  requests : s'.requests = s.requests

theorem Idle.refl (s : Session) : s.Idle s := ⟨rfl, rfl⟩

theorem Idle.trans {a b c : Session} (h : a.Idle b) (h' : b.Idle c) : a.Idle c :=
  ⟨h'.timeline.trans h.timeline, h'.requests.trans h.requests⟩

/-- From one session to another in spans, and idle between them. -/
inductive Course : Session → List Span → Session → Prop
  | done {s s' : Session} (h : s.Idle s') : Course s [] s'
  | next {s s' : Session} {w : Span} {ws : List Span} (h : s.Idle w.before) (hw : w.Proper)
      (rest : Course w.after ws s') : Course s (w :: ws) s'

theorem Course.of_idle {a b c : Session} {ws : List Span} (h : a.Idle b) (hc : Course b ws c) :
    Course a ws c := by
  cases hc with
  | done h' => exact .done (h.trans h')
  | next h' hw rest => exact .next (h.trans h') hw rest

/-- One course and then another. -/
theorem Course.append {a b c : Session} {ws vs : List Span} (h : Course a ws b) (h' : Course b vs c) :
    Course a (ws ++ vs) c := by
  induction h with
  | done h => exact h'.of_idle h
  | next h hw _ ih => exact .next h hw (ih h')

theorem Course.idle_right {a b c : Session} {ws : List Span} (h : Course a ws b) (h' : b.Idle c) :
    Course a ws c := by
  rw [← List.append_nil ws]
  exact h.append (.done h')

/-! ## Cuts -/

/-- A context is alive until what is waited for is there. -/
def Span.Outlasted (w : Span) (ctx : CallContext) : Prop := ctx.AliveUntil w.before.timeline w.ends

/-- How a context that does not outlast a span ends it: the error that comes of it, and the session that is
left behind, but for a temporary archive. -/
inductive Span.Cut (w : Span) (ctx : CallContext) : Error → Session → Prop
  /-- The context is over before anything is asked for. -/
  | unsent {t : Timeline} {archive : Option Octets} (h : ¬ ctx.Alive w.before.timeline)
      (ht : t.now = w.before.timeline.now) :
      Cut w ctx (ctx.ending w.before.timeline w.step) { w.before with timeline := t, archive }
  /-- The context ends before what is waited for is there. -/
  | pending {m : Instant} {archive : Option Octets} (h : ctx.EndsAt w.before.timeline m)
      (hm : m.nanos < w.ends.nanos) :
      Cut w ctx (ctx.ending (w.before.timeline.wait m) w.step)
        { w.begun with timeline := w.before.timeline.wait m, archive }

theorem Span.Cut.isInterruption {w : Span} {ctx : CallContext} {e : Error} {s : Session} (h : w.Cut ctx e s) :
    e.isInterruption = true := by
  cases h <;> exact ctx.isInterruption_ending _ _

/-- What is left behind does not depend on the archive. -/
theorem Span.Cut.withArchive {w : Span} {ctx : CallContext} {e : Error} {s : Session} (h : w.Cut ctx e s)
    (archive : Option Octets) : w.Cut ctx e { s with archive } := by
  cases h with
  | unsent h ht => exact .unsent h ht
  | pending h hm => exact .pending h hm

/-- A course is cut in the first of its spans that the context does not outlast. -/
def CutIn (ws : List Span) (ctx : CallContext) (e : Error) (s : Session) : Prop :=
  ∃ earlier w later, ws = earlier ++ w :: later ∧ (∀ v ∈ earlier, v.Outlasted ctx) ∧ w.Cut ctx e s

theorem CutIn.withArchive {ws : List Span} {ctx : CallContext} {e : Error} {s : Session} (h : CutIn ws ctx e s)
    (archive : Option Octets) : CutIn ws ctx e { s with archive } := by
  obtain ⟨earlier, w, later, rfl, ho, hc⟩ := h
  exact ⟨earlier, w, later, rfl, ho, hc.withArchive archive⟩

theorem CutIn.append_right {ws : List Span} {ctx : CallContext} {e : Error} {s : Session}
    (h : CutIn ws ctx e s) (vs : List Span) : CutIn (ws ++ vs) ctx e s := by
  obtain ⟨earlier, w, later, rfl, ho, hc⟩ := h
  exact ⟨earlier, w, later ++ vs, by simp, ho, hc⟩

/-- A cut is as it was behind spans that are outlasted. -/
theorem CutIn.append_left {vs ws : List Span} {ctx : CallContext} {e : Error} {s : Session}
    (ho : ∀ v ∈ vs, v.Outlasted ctx) (h : CutIn ws ctx e s) : CutIn (vs ++ ws) ctx e s := by
  obtain ⟨earlier, w, later, rfl, ho', hc⟩ := h
  refine ⟨vs ++ earlier, w, later, by simp, fun v hv => ?_, hc⟩
  rcases List.mem_append.mp hv with hv | hv
  · exact ho v hv
  · exact ho' v hv

/-! ## What can be interrupted -/

variable {α β : Type}

/-- An outcome under any context: the course is the same for all of them, and each either outlasts it or cuts
it. -/
structure Interrupted (x : CallContext → Except Error α × Session) (s : Session) (ws : List Span)
    (whole : Except Error α × Session) : Prop where
  course : Course s ws whole.2
  uninterrupted : Uninterrupted whole.1
  outcome : ∀ ctx, (∀ w ∈ ws, w.Outlasted ctx) ∧ x ctx = whole ∨
    ∃ e σ, CutIn ws ctx e σ ∧ x ctx = (.error e, σ)

/-- What is done under a context takes a course in any session, in spans that are as they should be. -/
def Interruptible (P : List Span → Prop) (x : CallContext → Action Session α) : Prop :=
  ∀ s, ∃ ws whole, P ws ∧ Interrupted (x · s) s ws whole

/-- What neither waits nor asks, and is not interrupted. -/
def Idles (x : Action Session α) : Prop := ∀ s : Session, s.Idle (x s).2 ∧ Uninterrupted (x s).1

/-- What does so and does not fail. -/
def Surely (x : Action Session α) : Prop := ∀ s : Session, ∃ a s', x s = (.ok a, s') ∧ s.Idle s'

theorem Idles.pure (a : α) : Idles (Pure.pure a : Action Session α) := fun _ => ⟨⟨rfl, rfl⟩, nofun⟩

theorem Idles.throw {e : Error} (he : e.isInterruption = false) :
    Idles (MonadExcept.throw e : Action Session α) := by
  refine fun s => ⟨⟨rfl, rfl⟩, fun e' h => ?_⟩
  cases h
  exact he

/-- What idles may come one after the other. -/
theorem Idles.bind {x : Action Session α} {f : α → Action Session β} (hx : Idles x) (hf : ∀ a, Idles (f a)) :
    Idles (x >>= f) := by
  intro s
  obtain ⟨hi, hu⟩ := hx s
  rcases h : x s with ⟨e | a, s'⟩
  · rw [h] at hi hu
    rw [bind_error h]
    refine ⟨hi, fun e' he => hu e' ?_⟩
    cases he
    rfl
  · rw [h] at hi
    rw [bind_ok h]
    exact ⟨hi.trans (hf a s').1, (hf a s').2⟩

theorem Surely.idles {x : Action Session α} (hx : Surely x) : Idles x := by
  intro s
  obtain ⟨a, s', h, hi⟩ := hx s
  rw [h]
  exact ⟨hi, nofun⟩

theorem Surely.bind {x : Action Session α} {f : α → Action Session β} (hx : Surely x)
    (hf : ∀ a, Surely (f a)) : Surely (x >>= f) := by
  intro s
  obtain ⟨a, s₁, h, hi⟩ := hx s
  obtain ⟨b, s₂, h', hi'⟩ := hf a s₁
  exact ⟨b, s₂, (bind_ok h).trans h', hi.trans hi'⟩

theorem Surely.log (level : LogLevel) (text : String) : Surely (Action.log level text : Action Session Unit) :=
  fun _ => ⟨_, _, rfl, rfl, rfl⟩

theorem Surely.get : Surely (getThe Session : Action Session Session) := fun s => ⟨s, s, rfl, .refl s⟩

namespace Interruptible

variable {P Q R : List Span → Prop} {x : CallContext → Action Session α}

theorem mono (h : ∀ ws, P ws → Q ws) (hx : Interruptible P x) : Interruptible Q x := by
  intro s
  obtain ⟨ws, whole, hP, hi⟩ := hx s
  exact ⟨ws, whole, h ws hP, hi⟩

theorem of_idles {x : Action Session α} (hP : P []) (hx : Idles x) : Interruptible P fun _ => x := fun s =>
  ⟨[], x s, hP, .done (hx s).1, (hx s).2, fun _ => .inl ⟨List.forall_mem_nil _, rfl⟩⟩

/-- The course of a sequence is the course of its first step and then that of the second. -/
theorem bind {f : CallContext → α → Action Session β} (hx : Interruptible P x)
    (hf : ∀ a, Interruptible Q fun ctx => f ctx a) (stop : ∀ ws, P ws → R ws)
    (go : ∀ ws vs, P ws → Q vs → R (ws ++ vs)) : Interruptible R fun ctx => x ctx >>= f ctx := by
  intro s
  obtain ⟨ws, ⟨r, s'⟩, hP, hcourse, hr, ho⟩ := hx s
  cases r with
  | error e =>
    refine ⟨ws, (.error e, s'), stop ws hP, hcourse, fun e' he => hr e' (by cases he; rfl), fun ctx => ?_⟩
    rcases ho ctx with ⟨hw, h⟩ | ⟨e', σ, hc, h⟩
    · exact .inl ⟨hw, bind_error h⟩
    · exact .inr ⟨e', σ, hc, bind_error h⟩
  | ok a =>
    obtain ⟨vs, whole, hQ, hcourse', hr', ho'⟩ := hf a s'
    refine ⟨ws ++ vs, whole, go ws vs hP hQ, hcourse.append hcourse', hr', fun ctx => ?_⟩
    rcases ho ctx with ⟨hw, h⟩ | ⟨e, σ, hc, h⟩
    · -- the first step is outlasted, so the second decides
      have hb : (x ctx >>= f ctx) s = f ctx a s' := bind_ok h
      rcases ho' ctx with ⟨hv, h'⟩ | ⟨e, σ, hc, h'⟩
      · refine .inl ⟨fun w hm => ?_, hb.trans h'⟩
        rcases List.mem_append.mp hm with hm | hm
        · exact hw w hm
        · exact hv w hm
      · exact .inr ⟨e, σ, hc.append_left hw, hb.trans h'⟩
    · exact .inr ⟨e, σ, hc.append_right vs, bind_error h⟩

theorem bind_idles {f : α → Action Session β} (hx : Interruptible P x) (hf : ∀ a, Idles (f a)) :
    Interruptible P fun ctx => x ctx >>= f := by
  refine hx.bind (fun a => of_idles (P := (· = [])) rfl (hf a)) (fun _ h => h) fun ws vs h hv => ?_
  rw [hv, List.append_nil]
  exact h

theorem idles_bind {x : Action Session α} {f : CallContext → α → Action Session β} (hP : P []) (hx : Idles x)
    (hf : ∀ a, Interruptible P fun ctx => f ctx a) : Interruptible P fun ctx => x >>= f ctx := by
  refine (of_idles (P := (· = [])) rfl hx).bind hf (fun ws h => h ▸ hP) fun ws vs h hv => ?_
  rw [h]
  exact hv

theorem surely_bind {x : Action Session α} {f : CallContext → α → Action Session β} (hx : Surely x)
    (hf : ∀ a, Interruptible P fun ctx => f ctx a) : Interruptible P fun ctx => x >>= f ctx := by
  intro s
  obtain ⟨a, s', h, hi⟩ := hx s
  obtain ⟨ws, whole, hP, hcourse, hr, ho⟩ := hf a s'
  refine ⟨ws, whole, hP, hcourse.of_idle hi, hr, fun ctx => ?_⟩
  show _ ∧ (x >>= f ctx) s = _ ∨ ∃ e σ, _ ∧ (x >>= f ctx) s = _
  rw [bind_ok h]
  exact ho ctx

end Interruptible

/-! ## Sections -/

/-- Spans that are as they should be, if there are any. -/
def Maybe (P : List Span → Prop) (ws : List Span) : Prop := ws = [] ∨ P ws

/-- Spans in sections, one after the other; each is as it should be, or is left out. -/
def Sectioned : List (List Span → Prop) → List Span → Prop
  | [], ws => ws = []
  | P :: plan, ws => ∃ us vs, ws = us ++ vs ∧ Maybe P us ∧ Sectioned plan vs

theorem Sectioned.nil : ∀ plan, Sectioned plan []
  | [] => rfl
  | _ :: plan => ⟨[], [], rfl, .inl rfl, Sectioned.nil plan⟩

section

variable {P : List Span → Prop} {plan : List (List Span → Prop)} {x : CallContext → Action Session α}

theorem Interruptible.section_bind {f : CallContext → α → Action Session β} (hx : Interruptible (Maybe P) x)
    (hf : ∀ a, Interruptible (Sectioned plan) fun ctx => f ctx a) :
    Interruptible (Sectioned (P :: plan)) fun ctx => x ctx >>= f ctx :=
  hx.bind hf (fun ws h => ⟨ws, [], (List.append_nil ws).symm, h, Sectioned.nil plan⟩)
    fun ws vs h hv => ⟨ws, vs, rfl, h, hv⟩

theorem Interruptible.sole (hx : Interruptible (Maybe P) x) : Interruptible (Sectioned [P]) x :=
  hx.mono fun ws h => ⟨ws, [], (List.append_nil ws).symm, h, rfl⟩

end

/-! ## Waiting -/

theorem arrival_uninterrupted (now limit : Instant) (f : Failure) (c : Coming α) :
    Uninterrupted (arrival now limit f c).value := by
  intro e he
  cases c with
  | after delay value =>
    unfold arrival at he
    dsimp only at he
    split at he <;> cases he
    rfl
  | broken delay => cases he; rfl
  | never => cases he; rfl

/-- Under a context that is over nothing is begun. -/
theorem await_of_over {ctx : CallContext} {s : Session} (h : ¬ ctx.Alive s.timeline) (limit : Instant)
    (f : Failure) (start : Session → Coming α × Session) : Session.await ctx limit f start s =
      (.error (ctx.ending s.timeline f.step), { s with timeline := s.timeline.wait s.timeline.now }) := by
  unfold Session.await CallContext.run
  rw [CallContext.check_of_not_alive h]

/-- One span in which something is waited for, which begins in some way. -/
def Awaited (step : String) (start : Session → Session) (ws : List Span) : Prop :=
  ∃ w : Span, ws = [w] ∧ w.step = step ∧ w.begun = start w.before

/-- A wait is one span. -/
theorem Interruptible.await {limit : Instant} {f : Failure} {start : Session → Coming α × Session}
    (ht : ∀ s, (start s).2.timeline = s.timeline)
    (hq : ∀ s, (start s).2.requests = s.requests ∨ ∃ q, (start s).2.requests = s.requests ++ [q]) :
    Interruptible (Awaited f.step fun s => (start s).2) fun ctx => Session.await ctx limit f start := by
  intro s
  let a := arrival s.timeline.now limit f (start s).1
  let w : Span := ⟨f.step, s, (start s).2,
    { (start s).2 with timeline := (start s).2.timeline.wait a.moment }, a.moment⟩
  have proper : w.Proper := ⟨ht s, hq s, rfl, by rw [← ht s]; rfl⟩
  refine ⟨[w], (a.value, w.after), ⟨w, rfl, rfl, rfl⟩, .next (.refl s) proper (.done (.refl _)),
    arrival_uninterrupted s.timeline.now limit f (start s).1, ?_⟩
  intro ctx
  by_cases alive : ctx.Alive s.timeline
  · have begun : Session.await ctx limit f start s = ((ctx.race s.timeline f.step a).value,
        { (start s).2 with timeline := (start s).2.timeline.wait (ctx.race s.timeline f.step a).moment }) := by
      unfold Session.await CallContext.run
      rw [alive.check]
    rcases CallContext.race_cases alive f.step a with ⟨until_there, hr⟩ | ⟨m, ends, hm, hr⟩
    · left
      rw [hr] at begun
      refine ⟨fun v hv => ?_, begun⟩
      cases List.mem_singleton.mp hv
      exact until_there
    · right
      rw [hr, ht] at begun
      exact ⟨_, _, ⟨[], w, [], rfl, List.forall_mem_nil _, .pending ends hm⟩, begun⟩
  · right
    have now : (s.timeline.wait s.timeline.now).now = w.before.timeline.now := Timeline.later_self _
    exact ⟨_, _, ⟨[], w, [], rfl, List.forall_mem_nil _, .unsent alive now⟩, await_of_over alive limit f start⟩

/-- One span of no length in which nothing is done. -/
def Checked (step : String) (ws : List Span) : Prop :=
  ∃ w : Span, ws = [w] ∧ w.step = step ∧ w.begun = w.before ∧ w.ends = w.before.timeline.now

/-- A check is a span of no length. -/
theorem Interruptible.check (step : String) :
    Interruptible (Checked step) fun ctx => Session.check ctx step := by
  intro s
  let w : Span := ⟨step, s, s, s, s.timeline.now⟩
  have proper : w.Proper := ⟨rfl, .inl rfl, rfl, (Timeline.later_self _).symm⟩
  refine ⟨[w], (.ok (), s), ⟨w, rfl, rfl, rfl, rfl⟩, .next (.refl s) proper (.done (.refl s)), nofun,
    fun ctx => ?_⟩
  by_cases alive : ctx.Alive s.timeline
  · left
    refine ⟨fun v hv => ?_, Prod.ext (alive.check step) rfl⟩
    cases List.mem_singleton.mp hv
    exact ⟨alive, fun i hi hlt => absurd hlt (Nat.not_lt.mpr hi)⟩
  · right
    have cut : w.Cut ctx (ctx.ending s.timeline step) s := .unsent alive rfl
    exact ⟨_, s, ⟨[], w, [], rfl, List.forall_mem_nil _, cut⟩,
      Prod.ext (CallContext.check_of_not_alive alive step) rfl⟩

end Session

/-! ## Exchanges -/

namespace Client

open Session

/-- Spans that belong to one thing that is done. -/
def Named (step : String) (ws : List Span) : Prop := ∀ w ∈ ws, w.step = step

/-- The spans of an inquiry: they belong to it, and the first one begins with asking for its URL. -/
structure Inquiry (c : Client) (step : String) (authorization : Option String) (u : Url) (ws : List Span) :
    Prop where
  named : Named step ws
  opened : ∃ w ∈ ws.head?, w.begun = (c.ask authorization u w.before).2

variable {c : Client} {step : String} {authorization : Option String} {u : Url} {ws vs : List Span}

theorem Named.append (hw : Named step ws) (hv : Named step vs) : Named step (ws ++ vs) := by
  intro w hm
  rcases List.mem_append.mp hm with hm | hm
  · exact hw w hm
  · exact hv w hm

theorem Inquiry.append (hw : c.Inquiry step authorization u ws) (hv : Named step vs) :
    c.Inquiry step authorization u (ws ++ vs) := by
  obtain ⟨named, w, hmem, hbegun⟩ := hw
  refine ⟨named.append hv, w, ?_, hbegun⟩
  rw [List.head?_append, hmem]
  rfl

variable (c step authorization u)

/-- An exchange is one span for each request that it takes. -/
theorem exchange_interruptible (limit : Instant) (more : Nat) :
    Interruptible (c.Inquiry step authorization u) fun ctx =>
      c.exchange ctx step limit more authorization u := by
  have asked : ∀ (authorization : Option String) (u : Url), Interruptible (c.Inquiry step authorization u)
      fun ctx => Session.await ctx limit (exchangeFailure step u) (c.ask authorization u) := by
    intro authorization u
    refine .mono (fun ws => ?_) (.await (fun s => ?_) fun s => ?_)
    · rintro ⟨w, rfl, hstep, hbegun⟩
      refine ⟨fun v hv => ?_, w, rfl, hbegun⟩
      cases List.mem_singleton.mp hv
      exact hstep
    · unfold ask
      split <;> rfl
    · unfold ask
      split
      · exact .inr ⟨_, rfl⟩
      · exact .inl rfl
  -- each redirection is one more inquiry, which belongs to the first one
  induction more generalizing authorization u with
  | zero =>
    unfold exchange
    refine (asked authorization u).bind (Q := Named step) (fun r => ?_) (fun _ h => h)
      fun ws vs h hv => h.append hv
    cases redirection? u r with
    | none => exact .of_idles (List.forall_mem_nil _) (.pure r)
    | some v => exact .of_idles (List.forall_mem_nil _) (.throw rfl)
  | succ more ih =>
    unfold exchange
    refine (asked authorization u).bind (Q := Named step) (fun r => ?_) (fun _ h => h)
      fun ws vs h hv => h.append hv
    cases redirection? u r with
    | none => exact .of_idles (List.forall_mem_nil _) (.pure r)
    | some v => exact (ih _ v).mono fun _ h => h.named

theorem isInterruption_ofStatus (status : Nat) : (Error.ofStatus step status).isInterruption = false := by
  unfold Error.ofStatus
  split
  · rfl
  · split <;> rfl

/-- Nothing that is done with a reply takes time. -/
theorem get_interruptible (credentials : Option Credentials) :
    Interruptible (c.Inquiry step (authorization? u credentials) u) fun ctx =>
      c.get ctx u credentials step := by
  unfold get
  refine .surely_bind (.log _ _) fun _ => .surely_bind .get fun s => ?_
  refine (c.exchange_interruptible step _ u _ _).bind_idles fun r => ?_
  by_cases h : Status.isSuccess r.status = true
  · simp only [if_pos h]
    exact .pure _
  · simp only [if_neg h]
    exact (Surely.log _ _).idles.bind fun _ => .throw (isInterruption_ofStatus step r.status)

/-- A body is one span for each of its pieces, and one for its end. -/
theorem forPieces_interruptible (limit : Instant) (ending : Coming Unit) {act : Octets → Action Session Unit}
    (ha : ∀ piece, Idles (act piece)) (pieces : List (Duration × Octets)) :
    Interruptible (Named step) fun ctx => forPieces ctx step limit ending act pieces := by
  have awaited : ∀ {α : Type} (coming : Coming α), Interruptible (Named step) fun ctx =>
      Session.await ctx limit (bodyFailure step) fun s => (coming, s) := by
    intro α coming
    refine .mono (fun ws => ?_) (.await (fun _ => rfl) fun _ => .inl rfl)
    rintro ⟨w, rfl, hstep, -⟩ v hv
    cases List.mem_singleton.mp hv
    exact hstep
  induction pieces with
  | nil => exact awaited ending
  | cons p rest ih =>
    obtain ⟨delay, piece⟩ := p
    exact (awaited (.after delay piece)).bind (fun q => .idles_bind (List.forall_mem_nil _) (ha q) fun _ => ih)
      (fun _ h => h)
      fun ws vs h hv => h.append hv

theorem getDocument_interruptible {α : Type} (what : String) (credentials : Option Credentials)
    (decode : Octets → Except Json.Error α) :
    Interruptible (c.Inquiry step (authorization? u credentials) u) fun ctx =>
      c.getDocument ctx u credentials step what decode := by
  unfold getDocument
  have read : ∀ r, Interruptible (Named step) fun ctx => readBody ctx step r := by
    intro r
    unfold readBody
    refine (forPieces_interruptible step _ _ (fun _ => .pure ()) _).bind_idles fun _ => ?_
    exact Idles.bind (fun s => ⟨⟨rfl, rfl⟩, nofun⟩) fun _ => .pure _
  refine (c.get_interruptible step u credentials).bind (fun r => (read r).bind_idles fun body => ?_)
    (fun _ h => h) fun ws vs h hv => h.append hv
  cases decode body with
  | ok a => exact .pure a
  | error e => exact .throw rfl

/-! ## Contexts that are over -/

variable {ctx : CallContext} {s : Session}

theorem get_of_over (h : ¬ ctx.Alive s.timeline) (credentials : Option Credentials) :
    Fails (·.isInterruption = true) (c.get ctx u credentials step) s := by
  -- only the record that something is asked for is made before the context is looked at
  let s' : Session := Journal.add ⟨.debug, "GET " ++ u.toString ++ " (" ++ step ++ ")"⟩ s
  have asked (limit : Instant) (authorization : Option String) : Fails (·.isInterruption = true)
      (Session.await ctx limit (exchangeFailure step u) (c.ask authorization u)) s' :=
    ⟨_, _, await_of_over (s := s') h _ _ _, ctx.isInterruption_ending _ _⟩
  have exchanged : Fails (·.isInterruption = true) (c.exchange ctx step (s.timeline.now.after c.requestTimeout)
      mostRedirections (authorization? u credentials) u) s' := by
    unfold exchange
    exact (asked _ _).bind _
  exact exchanged.bind _

end Client

end HostedGit
