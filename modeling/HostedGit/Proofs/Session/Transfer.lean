/-
Transfers. What is asked of a remote fails by the exchange or by the context, or for the status that came;
and of a body whose pieces are put by as they come, the pieces that came are kept in their order, up to the
one at which the transfer ends: all of them, if it ends well.
-/
import HostedGit.Proofs.Session.Received
import HostedGit.Proofs.Time.Ending

namespace HostedGit

open HostedGit.Action

/-! ## How exchanges fail -/

/-- What an exchange or a body fails with while something is being done. -/
inductive Client.Fault (step : String) : Error → Prop
  /-- The connection breaks, is too slow, or leads from place to place. -/
  | transport (cause : String) : Fault step (.transport step cause)
  /-- The context is over. -/
  | interruption {e : Error} (h : e.isInterruption = true) : Fault step e
  /-- The status carries nothing. -/
  | status (n : Nat) : Fault step (.ofStatus step n)

theorem Error.ofStatus_ne_extraction (step : String) (n : Nat) (cause : ExtractError) :
    Error.ofStatus step n ≠ .extraction cause := by
  unfold Error.ofStatus
  split
  · nofun
  · split <;> nofun

theorem Client.Fault.ne_extraction {step : String} {e : Error} (h : Fault step e) (cause : ExtractError) :
    e ≠ .extraction cause := by
  rintro rfl
  generalize he : Error.extraction cause = e at h
  cases h with
  | transport => cases he
  | interruption h => subst he; cases h
  | status n => exact Error.ofStatus_ne_extraction step n cause he.symm

section

variable {α : Type} (ctx : CallContext) (limit : Instant)

theorem Session.check_fails (step : String) :
    FailsOnly (Client.Fault step) (Session.check ctx step) := by
  intro s e s' h
  unfold Session.check at h
  rw [Prod.mk.injEq] at h
  exact .interruption (CallContext.isInterruption_of_check h.1)

theorem Session.arrival_fails {now : Instant} {f : Failure} {c : Coming α} {e : Error}
    (h : (arrival now limit f c).value = .error e) : e = .transport f.step f.cause := by
  unfold arrival at h
  cases c with
  | after delay value =>
    dsimp only at h
    split at h <;> cases h
    rfl
  | broken delay => cases h; rfl
  | never => cases h; rfl

theorem Session.await_fails (f : Failure) (start : Session → Coming α × Session) :
    FailsOnly (Client.Fault f.step) (Session.await ctx limit f start) := by
  intro s e s' h
  unfold Session.await CallContext.run at h
  rw [Prod.mk.injEq] at h
  obtain ⟨h, -⟩ := h
  cases hc : ctx.check s.timeline f.step with
  | error e' =>
    rw [hc] at h
    cases h
    exact .interruption (CallContext.isInterruption_of_check hc)
  | ok _ =>
    rw [hc] at h
    have alive : ctx.Alive s.timeline := CallContext.check_eq_ok_iff.mp hc
    -- what was waited for is there and is a failure, or the context has ended the wait
    rcases CallContext.race_cases alive f.step (arrival s.timeline.now limit f (start s).1) with
      ⟨-, hr⟩ | ⟨m, -, -, hr⟩
    · dsimp only at h
      rw [hr] at h
      rw [Session.arrival_fails limit h]
      exact .transport _
    · dsimp only at h
      rw [hr] at h
      cases h
      exact .interruption (ctx.isInterruption_ending _ _)

variable (c : Client) (step : String)

theorem Client.exchange_fails (more : Nat) (authorization : Option String) (u : Url) :
    FailsOnly (Fault step) (c.exchange ctx step limit more authorization u) := by
  induction more generalizing authorization u with
  | zero =>
    unfold exchange
    refine (Session.await_fails ctx limit _ _).bind fun r => ?_
    cases redirection? u r with
    | none => exact .pure r
    | some v => exact .throw (.transport _)
  | succ more ih =>
    unfold exchange
    refine (Session.await_fails ctx limit _ _).bind fun r => ?_
    cases redirection? u r with
    | none => exact .pure r
    | some v => exact ih _ v

theorem Client.get_fails (u : Url) (credentials : Option Credentials) :
    FailsOnly (Fault step) (c.get ctx u credentials step) := by
  unfold get
  refine .bind (.log _ _) fun _ => .bind (.of_ok fun s => ⟨s, s, rfl⟩) fun s => ?_
  refine (c.exchange_fails ctx _ step _ _ u).bind fun r => ?_
  split
  · exact .pure _
  · exact .bind (.log _ _) fun _ => .throw (.status r.status)

theorem Client.forPieces_fails {P : Error → Prop} (hP : ∀ e, Fault step e → P e) (ending : Coming Unit)
    {act : Octets → Action Session Unit} (ha : ∀ piece, FailsOnly P (act piece)) (pieces : List (Duration × Octets)) :
    FailsOnly P (forPieces ctx step limit ending act pieces) := by
  induction pieces with
  | nil => exact (Session.await_fails ctx limit _ _).mono hP
  | cons p rest ih =>
    obtain ⟨delay, piece⟩ := p
    exact ((Session.await_fails ctx limit _ _).mono hP).bind fun q => (ha q).bind fun _ => ih

/-- A document that is asked for fails as an exchange does, or cannot be read. -/
theorem Client.getDocument_failsOnly {P : Error → Prop} {what : String} (hP : ∀ e, Fault step e → P e)
    (hd : ∀ cause, P (.decode what cause)) (u : Url) (credentials : Option Credentials)
    (decode : Octets → Except Json.Error α) : FailsOnly P (c.getDocument ctx u credentials step what decode) := by
  unfold getDocument readBody
  refine ((c.get_fails ctx step u credentials).mono hP).bind fun r => ?_
  refine .bind (.bind (forPieces_fails ctx _ step hP _ (fun _ => .pure _) _) fun _ =>
    .bind (.of_ok fun _ => ⟨_, _, rfl⟩) fun _ => .pure _) fun body => ?_
  cases decode body with
  | ok a => exact .pure a
  | error e => exact .throw (hd e)

end

/-! ## Pieces that are put by -/

/-- To wait for what is under way already takes time and does nothing else. -/
theorem Session.await_still {α : Type} {ctx : CallContext} {limit : Instant} {f : Failure} {c : Coming α}
    {s s' : Session} {out : Except Error α} (h : Session.await ctx limit f (fun s => (c, s)) s = (out, s')) :
    ∃ t, s' = { s with timeline := t } := by
  unfold Session.await CallContext.run at h
  cases hc : ctx.check s.timeline f.step <;> rw [hc] at h <;> cases h <;> exact ⟨_, rfl⟩

/-- A session with other octets put by, at another time, and with more told. -/
def Session.holding (s : Session) (held : Octets) (t : Timeline) (progress : List ProgressEvent) : Session :=
  { s with archive := some held, timeline := t, progress }

theorem Session.holding_append_nil {s : Session} {held : Octets} (hs : s.archive = some held) (t : Timeline) :
    s.holding (held ++ []) t s.progress = { s with timeline := t } := by
  unfold holding
  rw [List.append_nil, ← hs]

/-- The step puts octets behind those that are put by, and may tell of it, or fails without doing so. -/
def Session.PutsBy (act : Octets → Action Session Unit) : Prop :=
  ∀ piece (s : Session), (∃ e, act piece s = (.error e, s)) ∨ ∃ progress,
    act piece s = (.ok (), s.holding (s.archive.getD [] ++ piece) s.timeline progress)

/-- However a transfer ends, the pieces that came by then are put by, but perhaps for the last of them; if it
ends well, these are all. -/
theorem Client.forPieces_puts {ctx : CallContext} {step : String} {limit : Instant} {ending : Coming Unit}
    {act : Octets → Action Session Unit} (ha : Session.PutsBy act) {pieces : List (Duration × Octets)}
    {s s' : Session} {held : Octets} {out : Except Error Unit} (hs : s.archive = some held)
    (h : Client.forPieces ctx step limit ending act pieces s = (out, s')) :
    ∃ taken, taken <+: pieces ∧ (∃ t progress, s' = s.holding (held ++ taken.flatMap (·.2)) t progress) ∧
      (out = .ok () → taken = pieces) := by
  induction pieces generalizing s held with
  | nil =>
    unfold Client.forPieces at h
    obtain ⟨t, rfl⟩ := Session.await_still h
    exact ⟨[], List.prefix_refl _, ⟨t, s.progress, (Session.holding_append_nil hs t).symm⟩, fun _ => rfl⟩
  | cons p rest ih =>
    obtain ⟨delay, piece⟩ := p
    unfold Client.forPieces at h
    rcases bind_cases h with ⟨q, s₁, hq, h⟩ | ⟨e, he, rfl⟩
    · obtain ⟨⟨_, came⟩, -⟩ := Session.await_ok hq
      cases came
      obtain ⟨t, rfl⟩ := Session.await_still hq
      rcases ha piece { s with timeline := t } with ⟨e, hfail⟩ | ⟨progress, hput⟩
      · -- the piece has come and is not put by
        rw [bind_error hfail] at h
        cases h
        exact ⟨[], List.nil_prefix, ⟨t, s.progress, (Session.holding_append_nil hs t).symm⟩, fun hok => by cases hok⟩
      rw [bind_ok hput, hs] at h
      obtain ⟨taken, hp, ⟨t', progress', rfl⟩, hall⟩ := ih rfl h
      refine ⟨(delay, piece) :: taken, List.cons_prefix_cons.mpr ⟨rfl, hp⟩, ⟨t', progress', ?_⟩,
        fun hok => by rw [hall hok]⟩
      simp [Session.holding]
    · -- the next piece has not come
      obtain ⟨t, rfl⟩ := Session.await_still he
      exact ⟨[], List.nil_prefix, ⟨t, s.progress, (Session.holding_append_nil hs t).symm⟩, fun hok => by cases hok⟩

end HostedGit
