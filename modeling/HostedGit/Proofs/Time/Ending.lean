/-
How contexts end. What is known at a moment tells when a context will be over: at the first moment at which
its token is cancelled or its deadline has come. A wait is cut at that moment, with the error that fits, or
comes to what was waited for.
-/
import HostedGit.Proofs.Time.Alive

namespace HostedGit

/-! ## When a token is cancelled -/

namespace Timeline

variable {t : Timeline} {token : Token} {i m : Instant}

theorem later_self (i : Instant) : i.later i = i := by
  unfold Instant.later
  split <;> rfl

theorem foldl_earlier_le {ms : List Instant} {first : Option Instant} {m : Instant}
    (h : ms.foldl (fun first m => some (first.elim m m.earlier)) first = some m) :
    (∀ a ∈ first, m.nanos ≤ a.nanos) ∧ ∀ a ∈ ms, m.nanos ≤ a.nanos := by
  induction ms generalizing first with
  | nil =>
    cases h
    simp
  | cons b ms ih =>
    obtain ⟨hb, hms⟩ := ih h
    have hb := hb _ rfl
    constructor
    · rintro a ha
      cases ha
      simp only [Option.elim_some, nanos_earlier] at hb
      omega
    · intro a ha
      rcases List.mem_cons.mp ha with rfl | ha
      · cases first with
        | none => exact hb
        | some a' =>
          simp only [Option.elim_some, nanos_earlier] at hb
          omega
      · exact hms a ha

theorem foldl_earlier_isSome {ms : List Instant} (first : Option Instant) :
    (ms.foldl (fun first m => some (first.elim m m.earlier)) first).isSome ↔ first.isSome ∨ ms ≠ [] := by
  induction ms generalizing first with
  | nil => simp
  | cons b ms ih =>
    rw [List.foldl_cons, ih]
    simp

/-- After a wait a token is cancelled if it was to be cancelled by then. -/
theorem isCancelled_wait (hi : t.now.nanos ≤ i.nanos) (h : t.isCancelled token = false) :
    (t.wait i).isCancelled token = true ↔ ∃ m ∈ t.cancellation? token, m.nanos ≤ i.nanos := by
  have hnow : (t.now.later i).nanos = i.nanos := by
    rw [nanos_later]
    omega
  constructor
  · intro hc
    unfold isCancelled at hc
    rw [List.contains_iff_mem] at hc
    rcases List.mem_append.mp hc with hc | hc
    · -- it has just been cancelled, so one of the plans for it was due
      obtain ⟨p, hp, rfl⟩ := List.mem_map.mp hc
      obtain ⟨hp, hdue⟩ := List.mem_filter.mp hp
      have hdue : p.1.nanos ≤ (t.now.later i).nanos := of_decide_eq_true hdue
      have hmem : t.now.later p.1 ∈ (t.planned.filter (·.2 = p.2)).map fun q => t.now.later q.1 :=
        List.mem_map_of_mem (List.mem_filter.mpr ⟨hp, by simp⟩)
      unfold cancellation?
      rw [h]
      obtain ⟨m, hm⟩ := Option.isSome_iff_exists.mp
        ((foldl_earlier_isSome none).mpr (.inr (List.ne_nil_of_mem hmem)))
      refine ⟨m, hm, ?_⟩
      have := (foldl_earlier_le hm).2 _ hmem
      rw [nanos_later] at this
      omega
    · rw [← List.contains_iff_mem] at hc
      unfold isCancelled at h
      rw [h] at hc
      cases hc
  · rintro ⟨m, hm, hle⟩
    obtain ⟨p, hp, rfl, rfl⟩ := planned_of_cancellation? hm h
    unfold isCancelled
    rw [List.contains_iff_mem]
    rw [nanos_later] at hle
    exact cancelled_wait hp (by omega)

theorem now_le_of_cancellation? (h : t.cancellation? token = some m) (hn : t.isCancelled token = false) :
    t.now.nanos ≤ m.nanos := by
  obtain ⟨p, -, -, rfl⟩ := planned_of_cancellation? h hn
  rw [nanos_later]
  omega

end Timeline

/-! ## When a context is over -/

/-- An error that says no more than that a context is over. -/
def Error.isInterruption : Error → Bool
  | .cancelled | .timeout _ => true
  | _ => false

namespace CallContext

variable {c : CallContext} {t : Timeline} {i m : Instant} {step : String}

/-- Why a context that is over is over. -/
def ending (c : CallContext) (t : Timeline) (step : String) : Error :=
  if t.isCancelled c.token then .cancelled else .timeout step

theorem isInterruption_ending (c : CallContext) (t : Timeline) (step : String) :
    (c.ending t step).isInterruption = true := by
  unfold ending
  split <;> rfl

/-- A context is alive, and stays alive as time passes until a moment. -/
structure AliveUntil (c : CallContext) (t : Timeline) (m : Instant) : Prop where
  alive : c.Alive t
  stays : ∀ i : Instant, t.now.nanos ≤ i.nanos → i.nanos < m.nanos → c.Alive (t.wait i)

/-- A context is alive until a moment, at which it is over. -/
structure EndsAt (c : CallContext) (t : Timeline) (m : Instant) : Prop extends c.AliveUntil t m where
  now : t.now.nanos ≤ m.nanos
  ended : ¬ c.Alive (t.wait m)

theorem check_of_not_alive (h : ¬ c.Alive t) (step : String) : c.check t step = .error (c.ending t step) := by
  unfold CallContext.check ending
  by_cases hc : t.isCancelled c.token = true
  · rw [if_pos hc, if_pos hc]
  rw [if_neg hc, if_neg hc, if_pos]
  -- not being cancelled, the context is late
  refine Decidable.byContradiction fun hd => h ⟨fun hm => hc (List.contains_iff_mem.mpr hm), fun d hd' => ?_⟩
  rw [Option.mem_def.mp hd'] at hd
  simp only [Option.any_some, decide_eq_true_eq] at hd
  omega

theorem check_eq_ok_iff {step : String} : c.check t step = .ok () ↔ c.Alive t := by
  refine ⟨fun h => Classical.byContradiction fun dead => ?_, fun h => h.check step⟩
  rw [check_of_not_alive dead] at h
  cases h

theorem isInterruption_of_check {e : Error} (h : c.check t step = .error e) : e.isInterruption = true := by
  unfold CallContext.check at h
  split at h
  · cases h
    rfl
  · split at h <;> cases h
    rfl

theorem alive_wait_iff (h : c.Alive t) (hi : t.now.nanos ≤ i.nanos) :
    c.Alive (t.wait i) ↔
      (∀ m ∈ t.cancellation? c.token, i.nanos < m.nanos) ∧ ∀ d ∈ c.deadline, i.nanos < d.nanos := by
  have hnow : (t.wait i).now.nanos = i.nanos := by
    rw [Timeline.now_wait, Timeline.nanos_later]
    omega
  have hc := Timeline.isCancelled_wait hi h.isCancelled
  constructor
  · intro ha
    refine ⟨fun m hm => Nat.lt_of_not_le fun hle => ?_, fun d hd => ?_⟩
    · have := hc.mpr ⟨m, hm, hle⟩
      rw [ha.isCancelled] at this
      cases this
    · have := ha.early d hd
      omega
  · rintro ⟨hm, hd⟩
    refine ⟨fun hmem => ?_, fun d hd' => ?_⟩
    · obtain ⟨m, hm', hle⟩ := hc.mp (List.contains_iff_mem.mpr hmem)
      have := hm m hm'
      omega
    · have := hd d hd'
      omega

/-- A context ends at the first of the moments that may end it. -/
theorem endsAt_of_first (h : c.Alive t) (hnow : t.now.nanos ≤ m.nanos)
    (hc : ∀ a ∈ t.cancellation? c.token, m.nanos ≤ a.nanos) (hd : ∀ d ∈ c.deadline, m.nanos ≤ d.nanos)
    (ho : (∃ a ∈ t.cancellation? c.token, a.nanos ≤ m.nanos) ∨ ∃ d ∈ c.deadline, d.nanos ≤ m.nanos) :
    c.EndsAt t m := by
  refine ⟨⟨h, fun i hi hlt => (alive_wait_iff h hi).mpr ⟨fun a ha => ?_, fun d hd' => ?_⟩⟩, hnow, fun ha => ?_⟩
  · have := hc a ha
    omega
  · have := hd d hd'
    omega
  · obtain ⟨hc', hd'⟩ := (alive_wait_iff h hnow).mp ha
    rcases ho with ⟨a, ha, hle⟩ | ⟨d, hd'', hle⟩
    · have := hc' a ha
      omega
    · have := hd' d hd''
      omega

theorem ending_of_cancelled (h : c.Alive t) (hnow : t.now.nanos ≤ m.nanos)
    (ha : ∃ a ∈ t.cancellation? c.token, a.nanos ≤ m.nanos) : c.ending (t.wait m) step = .cancelled := by
  unfold ending
  rw [if_pos ((Timeline.isCancelled_wait hnow h.isCancelled).mpr ha)]

theorem ending_of_late (h : c.Alive t) (hnow : t.now.nanos ≤ m.nanos)
    (ha : ∀ a ∈ t.cancellation? c.token, m.nanos < a.nanos) : c.ending (t.wait m) step = .timeout step := by
  unfold ending
  rw [if_neg]
  intro hc
  obtain ⟨a, ha', hle⟩ := (Timeline.isCancelled_wait hnow h.isCancelled).mp hc
  have := ha a ha'
  omega

theorem aliveUntil_of_interruption? (h : c.Alive t) (hi : c.interruption? t step = none) (m : Instant) :
    c.AliveUntil t m := by
  refine ⟨h, fun i hnow _ => (alive_wait_iff h hnow).mpr ?_⟩
  unfold interruption? at hi
  cases hc : t.cancellation? c.token with
  | none =>
    rw [hc] at hi
    rw [Option.map_eq_none_iff.mp hi]
    exact ⟨nofun, nofun⟩
  | some a =>
    rw [hc] at hi
    cases hd : c.deadline with
    | none => rw [hd] at hi; cases hi
    | some d =>
      rw [hd] at hi
      dsimp only [Option.map_some] at hi
      split at hi <;> cases hi

/-- What interrupts a wait does so when the context ends, and says why it has ended. -/
theorem endsAt_of_interruption? (h : c.Alive t) {e : Arrival Error} (hi : c.interruption? t step = some e) :
    c.EndsAt t e.moment ∧ e.value = c.ending (t.wait e.moment) step := by
  have late : ∀ d ∈ c.deadline, t.now.nanos ≤ (t.now.later d).nanos ∧ (t.now.later d).nanos = d.nanos := by
    intro d hd
    have := h.early d hd
    rw [Timeline.nanos_later]
    omega
  have first : ∀ a ∈ t.cancellation? c.token, t.now.nanos ≤ a.nanos := fun a ha =>
    Timeline.now_le_of_cancellation? ha h.isCancelled
  -- the deadline ends the context if it comes before any cancellation
  have ended_late : ∀ d ∈ c.deadline, (∀ a ∈ t.cancellation? c.token, d.nanos < a.nanos) →
      c.EndsAt t (t.now.later d) ∧ .timeout step = c.ending (t.wait (t.now.later d)) step := by
    intro d hd ha
    obtain ⟨hnow, hl⟩ := late d hd
    refine ⟨endsAt_of_first h hnow (fun a ha' => ?_) (fun d' hd' => ?_) (.inr ⟨d, hd, by omega⟩),
      (ending_of_late h hnow fun a ha' => by rw [hl]; exact ha a ha').symm⟩
    · have := ha a ha'
      omega
    · cases hd.symm.trans hd'
      omega
  -- and a cancellation ends it if it comes no later than the deadline
  have ended_cancelled : ∀ a ∈ t.cancellation? c.token, (∀ d ∈ c.deadline, a.nanos ≤ d.nanos) →
      c.EndsAt t a ∧ .cancelled = c.ending (t.wait a) step := by
    intro a ha hd
    refine ⟨endsAt_of_first h (first a ha) (fun b hb => ?_) hd (.inl ⟨a, ha, Nat.le_refl _⟩),
      (ending_of_cancelled h (first a ha) ⟨a, ha, Nat.le_refl _⟩).symm⟩
    cases ha.symm.trans hb
    exact Nat.le_refl _
  unfold interruption? at hi
  cases hc : t.cancellation? c.token with
  | none =>
    rw [hc] at hi ended_late
    obtain ⟨d, hd, rfl⟩ := Option.map_eq_some_iff.mp hi
    exact ended_late d hd nofun
  | some a =>
    rw [hc] at hi
    cases hd : c.deadline with
    | none =>
      rw [hd] at hi ended_cancelled
      cases hi
      exact ended_cancelled a hc nofun
    | some d =>
      obtain ⟨-, hl⟩ := late d hd
      rw [hd] at hi
      dsimp only [Option.map_some] at hi
      split at hi
      · cases hi
        refine ended_cancelled a hc fun d' hd' => ?_
        cases hd.symm.trans hd'
        omega
      · cases hi
        refine ended_late d hd fun a' ha' => ?_
        cases hc.symm.trans ha'
        omega

/-- A wait under a context that is alive comes to what was waited for, if the context stays alive until that
is there; otherwise it is cut when the context ends. -/
theorem race_cases {α : Type} (h : c.Alive t) (step : String) (a : Arrival (Except Error α)) :
    c.AliveUntil t a.moment ∧ c.race t step a = a ∨
      ∃ m, c.EndsAt t m ∧ m.nanos < a.moment.nanos ∧
        c.race t step a = ⟨m, .error (c.ending (t.wait m) step)⟩ := by
  unfold race
  cases hi : c.interruption? t step with
  | none => exact .inl ⟨aliveUntil_of_interruption? h hi _, rfl⟩
  | some e =>
    obtain ⟨hends, hvalue⟩ := endsAt_of_interruption? h hi
    dsimp only
    split
    · rename_i hle
      exact .inl ⟨⟨h, fun i hnow hlt => hends.stays i hnow (by omega)⟩, rfl⟩
    · rename_i hlt
      exact .inr ⟨e.moment, hends, by omega, by rw [hvalue]⟩

end CallContext

end HostedGit
