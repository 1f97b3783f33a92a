/-
Bounding a context by a span of time. That can be done exactly if the moment at which the span ends can be told,
whatever the context is; the new context then lasts as long as the old one and the span both do.
-/
import HostedGit.Proofs.Time.Ending

namespace HostedGit

variable {i m : Instant} {d : Duration}

theorem Instant.after?_eq_some_iff : i.after? d = some m ↔ i.nanos + d.nanos ≤ latest.nanos ∧ m = i.after d := by
  unfold after?
  rw [Timeline.nanos_after]
  split
  · rename_i h
    exact ⟨fun he => ⟨h, (Option.some.inj he).symm⟩, fun he => congrArg some he.2.symm⟩
  · rename_i h
    exact ⟨nofun, fun he => absurd he.1 h⟩

namespace CallContext

variable {c c' : CallContext} {now : Instant} {t : Timeline} {step : String}

/-- The moment at which a context ends that is bounded by another moment. -/
def boundedBy (c : CallContext) (m : Instant) : Instant := c.deadline.elim m m.earlier

theorem withTimeout?_eq_some_iff : c.withTimeout? now d = some c' ↔
    now.nanos + d.nanos ≤ Instant.latest.nanos ∧ c' = ⟨c.token, some (c.boundedBy (now.after d))⟩ := by
  unfold withTimeout?
  constructor
  · intro h
    obtain ⟨m, hm, he⟩ := Option.bind_eq_some_iff.mp h
    obtain ⟨told, rfl⟩ := Instant.after?_eq_some_iff.mp hm
    exact ⟨told, (Option.some.inj he).symm⟩
  · rintro ⟨told, rfl⟩
    exact Option.bind_eq_some_iff.mpr ⟨_, Instant.after?_eq_some_iff.mpr ⟨told, rfl⟩, rfl⟩

theorem boundedBy_cases (c : CallContext) (m : Instant) : c.boundedBy m = m ∨ c.deadline = some (c.boundedBy m) := by
  unfold boundedBy
  cases c.deadline with
  | none => exact .inl rfl
  | some l =>
    show m.earlier l = m ∨ some l = some (m.earlier l)
    unfold Instant.earlier
    split
    · exact .inl rfl
    · exact .inr rfl

theorem boundedBy_le (c : CallContext) (m : Instant) :
    (c.boundedBy m).nanos ≤ m.nanos ∧ ∀ l ∈ c.deadline, (c.boundedBy m).nanos ≤ l.nanos := by
  unfold boundedBy
  cases c.deadline with
  | none => exact ⟨Nat.le_refl _, nofun⟩
  | some l =>
    have first : (m.earlier l).nanos = min m.nanos l.nanos := Timeline.nanos_earlier m l
    refine ⟨first ▸ Nat.min_le_left _ _, fun l' h => ?_⟩
    cases h
    exact first ▸ Nat.min_le_right _ _

/-- A bounded context is alive as long as the context is and the bound has not come. -/
theorem alive_boundedBy_iff :
    CallContext.Alive ⟨c.token, some (c.boundedBy m)⟩ t ↔ c.Alive t ∧ t.now.nanos < m.nanos := by
  obtain ⟨hm, hl⟩ := boundedBy_le c m
  constructor
  · rintro ⟨uncancelled, early⟩
    have early := early _ rfl
    exact ⟨⟨uncancelled, fun l h => Nat.lt_of_lt_of_le early (hl l h)⟩, Nat.lt_of_lt_of_le early hm⟩
  · rintro ⟨alive, before⟩
    refine ⟨alive.uncancelled, fun l h => ?_⟩
    cases h
    rcases boundedBy_cases c m with he | he
    · rwa [he]
    · exact alive.early _ he

/-- Whatever a context is and whatever the time, the context can be bounded by a span exactly if the moment at which
the span ends can be told. The new context then has the token of the old one, and the first of that moment and of the
old one's deadline as its own; so it lets calls go on exactly as long as the old one does and the span lasts. -/
theorem withTimeout?_bounds (c : CallContext) (now : Instant) (d : Duration) :
    ((c.withTimeout? now d).isSome = true ↔ now.nanos + d.nanos ≤ Instant.latest.nanos) ∧
    ∀ c' ∈ c.withTimeout? now d, c'.token = c.token ∧
      (∃ l, c'.deadline = some l ∧ (l = now.after d ∨ c.deadline = some l) ∧
        l.nanos ≤ now.nanos + d.nanos ∧ ∀ m ∈ c.deadline, l.nanos ≤ m.nanos) ∧
      ∀ t step, c'.check t step = .ok () ↔ c.check t step = .ok () ∧ t.now.nanos < now.nanos + d.nanos := by
  refine ⟨?_, fun c' h => ?_⟩
  · rw [Option.isSome_iff_exists]
    constructor
    · rintro ⟨c', h⟩
      exact (withTimeout?_eq_some_iff.mp h).1
    · exact fun told => ⟨_, withTimeout?_eq_some_iff.mpr ⟨told, rfl⟩⟩
  · obtain ⟨-, rfl⟩ := withTimeout?_eq_some_iff.mp h
    refine ⟨rfl, ⟨_, rfl, boundedBy_cases c _, boundedBy_le c _⟩, fun t step => ?_⟩
    rw [check_eq_ok_iff, check_eq_ok_iff, alive_boundedBy_iff, Timeline.nanos_after]

/-- The longest span that can be given, under an earlier deadline; and the same a moment later, when it is too long. -/
theorem withTimeout?_bounds_latest :
    let c : CallContext := ⟨⟨0⟩, some (.after .start (.ofSeconds 60))⟩
    let d : Duration := ⟨Instant.latest.nanos - 1⟩
    let late : Timeline := ⟨.after .start (.ofSeconds 60), [], []⟩
    (∃ c', c.withTimeout? ⟨1⟩ d = some c' ∧ c'.deadline = c.deadline ∧ c'.check .start "list refs" = .ok () ∧
      c'.check late "list refs" ≠ .ok ()) ∧
      ¬ (c.withTimeout? ⟨2⟩ d).isSome = true := by
  intro c d late
  obtain ⟨told, bounds⟩ := withTimeout?_bounds c ⟨1⟩ d
  obtain ⟨c', hc⟩ := Option.isSome_iff_exists.mp (told.mpr (by decide))
  obtain ⟨-, ⟨l, hl, hor, -, hle⟩, lasts⟩ := bounds c' hc
  refine ⟨⟨c', hc, ?_, (lasts _ _).mpr ⟨rfl, by decide⟩, fun h => ?_⟩, fun h => ?_⟩
  · rcases hor with rfl | same
    · exact absurd (hle _ rfl) (by decide)
    · rw [hl, same]
  · cases ((lasts _ _).mp h).1
  · exact absurd ((withTimeout?_bounds c ⟨2⟩ d).1.mp h) (by decide)

/-- A span that is too long fails, even where an earlier deadline would stand. -/
theorem withTimeout?_fails :
    ¬ ∀ (c : CallContext) (now : Instant) (d : Duration), d.nanos ≤ Duration.longest.nanos →
      ∃ c', c.withTimeout? now d = some c' ∧ ∀ m ∈ c.deadline, ∃ l ∈ c'.deadline, l.nanos ≤ m.nanos := by
  intro h
  obtain ⟨_, told, -⟩ := h ⟨⟨0⟩, some (Instant.start.after (.ofSeconds 60))⟩ .start .longest (Nat.le_refl _)
  have short := (withTimeout?_eq_some_iff.mp told).1
  revert short
  decide

end CallContext

end HostedGit
