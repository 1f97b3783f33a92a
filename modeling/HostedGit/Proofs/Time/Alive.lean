/-
Contexts that are alive. What is known of the time only grows, so a context that is over stays over; and a
wait after which its context is still alive was not cut short by it.
-/
import HostedGit.CallContext

namespace HostedGit

/-! ## Time goes on -/

/-- Time has gone on: the clock was not set back, and what was cancelled still is. -/
structure Timeline.Forward (t t' : Timeline) : Prop where
  now : t.now.nanos ≤ t'.now.nanos
  cancelled : t.cancelled ⊆ t'.cancelled

namespace Timeline

@[simp] theorem nanos_later (i j : Instant) : (i.later j).nanos = max i.nanos j.nanos := by
  unfold Instant.later
  split <;> omega

@[simp] theorem nanos_earlier (i j : Instant) : (i.earlier j).nanos = min i.nanos j.nanos := by
  unfold Instant.earlier
  split <;> omega

@[simp] theorem nanos_after (i : Instant) (d : Duration) : (i.after d).nanos = i.nanos + d.nanos := rfl

theorem Forward.refl (t : Timeline) : t.Forward t := ⟨Nat.le_refl _, List.Subset.refl _⟩

theorem Forward.trans {a b c : Timeline} (h : a.Forward b) (h' : b.Forward c) : a.Forward c :=
  ⟨Nat.le_trans h.now h'.now, List.Subset.trans h.cancelled h'.cancelled⟩

theorem forward_wait (t : Timeline) (m : Instant) : t.Forward (t.wait m) where
  now := by
    show t.now.nanos ≤ (t.now.later m).nanos
    rw [nanos_later]
    omega
  cancelled := List.subset_append_right _ _

theorem now_wait (t : Timeline) (m : Instant) : (t.wait m).now = t.now.later m := rfl

/-- A cancellation that is planned for no later than the end of a wait has happened by then. -/
theorem cancelled_wait {t : Timeline} {m : Instant} {p : Instant × Token} (hp : p ∈ t.planned)
    (h : p.1.nanos ≤ (t.now.later m).nanos) : p.2 ∈ (t.wait m).cancelled := by
  refine List.mem_append_left _ (List.mem_map_of_mem (List.mem_filter.mpr ⟨hp, ?_⟩))
  exact decide_eq_true h

/-- The first of some moments. -/
theorem mem_foldl_earlier {ms : List Instant} {first : Option Instant} {m : Instant}
    (h : ms.foldl (fun first m => some (first.elim m m.earlier)) first = some m) :
    first = some m ∨ m ∈ ms := by
  induction ms generalizing first with
  | nil => exact .inl h
  | cons a ms ih =>
    rcases ih h with h | h
    · cases first with
      | none => cases h; exact .inr List.mem_cons_self
      | some b =>
        cases h
        unfold Option.elim Instant.earlier
        dsimp only
        split
        · exact .inr List.mem_cons_self
        · exact .inl rfl
    · exact .inr (List.mem_cons_of_mem _ h)

/-- A token that is not cancelled yet is cancelled by planning. -/
theorem planned_of_cancellation? {t : Timeline} {token : Token} {m : Instant}
    (h : t.cancellation? token = some m) (hn : t.isCancelled token = false) :
    ∃ p ∈ t.planned, p.2 = token ∧ m = t.now.later p.1 := by
  unfold cancellation? at h
  rw [hn] at h
  rcases mem_foldl_earlier h with h | h
  · cases h
  · obtain ⟨p, hp, rfl⟩ := List.mem_map.mp h
    rw [List.mem_filter] at hp
    exact ⟨p, hp.1, of_decide_eq_true hp.2, rfl⟩

end Timeline

/-! ## Contexts -/

namespace CallContext

/-- A context lets calls go on: it is neither cancelled nor late. -/
structure Alive (c : CallContext) (t : Timeline) : Prop where
  uncancelled : c.token ∉ t.cancelled
  early : ∀ d ∈ c.deadline, t.now.nanos < d.nanos

theorem Alive.of_forward {c : CallContext} {t t' : Timeline} (h : c.Alive t') (ht : t.Forward t') :
    c.Alive t :=
  ⟨fun hc => h.uncancelled (ht.cancelled hc), fun d hd => Nat.lt_of_le_of_lt ht.now (h.early d hd)⟩

theorem Alive.isCancelled {c : CallContext} {t : Timeline} (h : c.Alive t) : t.isCancelled c.token = false := by
  unfold Timeline.isCancelled
  rw [Bool.eq_false_iff, Ne, List.contains_iff_mem]
  exact h.uncancelled

theorem Alive.check {c : CallContext} {t : Timeline} (h : c.Alive t) (step : String) :
    c.check t step = .ok () := by
  unfold CallContext.check
  rw [h.isCancelled, if_neg Bool.false_ne_true, if_neg]
  cases hd : c.deadline with
  | none => exact Bool.false_ne_true
  | some d =>
    have := h.early d hd
    simp only [Option.any_some, decide_eq_true_eq]
    omega

/-- At the moment at which a context ends a wait, it is over. -/
theorem not_alive_of_interruption? {c : CallContext} {t : Timeline} {step : String} {i : Arrival Error}
    (h : c.interruption? t step = some i) (ha : c.Alive t) : ¬ c.Alive (t.wait i.moment) := by
  intro hw
  -- what ends the wait is over once it has been waited for
  have not_late : ∀ d ∈ c.deadline, ∀ m : Instant, m = t.now.later d → ¬ c.Alive (t.wait m) := by
    rintro d hd m rfl hm
    have := hm.early d hd
    rw [Timeline.now_wait] at this
    simp only [Timeline.nanos_later] at this
    omega
  have not_cancelled : ∀ m, t.cancellation? c.token = some m → ¬ c.Alive (t.wait m) := by
    intro m hm hm'
    obtain ⟨p, hp, hpt, rfl⟩ := Timeline.planned_of_cancellation? hm ha.isCancelled
    refine hm'.uncancelled ?_
    rw [← hpt]
    refine Timeline.cancelled_wait hp ?_
    simp only [Timeline.nanos_later]
    omega
  unfold interruption? at h
  cases hc : t.cancellation? c.token with
  | none =>
    rw [hc] at h
    obtain ⟨d, hd, rfl⟩ := Option.map_eq_some_iff.mp h
    exact not_late d hd _ rfl hw
  | some m =>
    rw [hc] at h
    cases hd : c.deadline with
    | none =>
      rw [hd] at h
      cases h
      exact not_cancelled m hc hw
    | some d =>
      rw [hd] at h
      dsimp only [Option.map_some] at h
      split at h
      · cases h
        exact not_cancelled m hc hw
      · cases h
        exact not_late d hd _ rfl hw

/-- A wait that its context outlives ends with what was waited for. -/
theorem race_of_alive {α : Type} {c : CallContext} {t : Timeline} {step : String}
    {a : Arrival (Except Error α)} (ha : c.Alive t) (h : c.Alive (t.wait (c.race t step a).moment)) :
    c.race t step a = a := by
  unfold race at h ⊢
  cases hi : c.interruption? t step with
  | none => rfl
  | some i =>
    rw [hi] at h
    dsimp only at h ⊢
    split at h
    · rename_i hle
      rw [if_pos hle]
    · exact absurd h (not_alive_of_interruption? hi ha)

end CallContext

end HostedGit
