/-
What is said last. A state that is changed by one thing after another shows in the end what the last of them said that
said anything, or what it showed before, where none did.
-/
import Mathlib.Data.List.Basic

namespace HostedGit

variable {σ ω α : Type} {said : ω → Option α}

/-- What is said last holds: of a state each change of which shows in a view just as far as it says something of it,
the view is at the end what was said last. -/
theorem view_foldl {step : σ → ω → σ} (good : σ → Prop) (view : σ → α) (said : ω → Option α)
    (keeps : ∀ {s}, good s → ∀ x, good (step s x))
    (tells : ∀ {s}, good s → ∀ x, view (step s x) = (said x).getD (view s)) (log : List ω) {s : σ} (hs : good s) :
    view (log.foldl step s) = (log.filterMap said).getLast?.getD (view s) := by
  induction log generalizing s with
  | nil => rfl
  | cons x log ih =>
    rw [List.foldl_cons, ih (keeps hs x), tells hs]
    cases hx : said x with
    | none => rw [List.filterMap_cons_none hx]; rfl
    | some v =>
      rw [List.filterMap_cons_some hx, List.getLast?_cons]
      rfl

/-- What is said last is followed by nothing that says anything. -/
theorem getLast?_filterMap_eq_some_iff {log : List ω} {a : α} :
    (log.filterMap said).getLast? = some a ↔
      ∃ before x after, log = before ++ x :: after ∧ said x = some a ∧ ∀ y ∈ after, said y = none := by
  rw [List.getLast?_filterMap, List.findSome?_eq_some_iff]
  constructor
  · rintro ⟨after, x, before, he, hx, hlater⟩
    refine ⟨before.reverse, x, after.reverse, ?_, hx, fun y hy => hlater y (List.mem_reverse.mp hy)⟩
    rw [← List.reverse_reverse log, he]
    simp
  · rintro ⟨before, x, after, rfl, hx, hlater⟩
    exact ⟨after.reverse, x, before.reverse, by simp, hx, fun y hy => hlater y (List.mem_reverse.mp hy)⟩

end HostedGit
