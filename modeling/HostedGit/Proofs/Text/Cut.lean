/-
Cutting a text at a mark gives the part before it and the part after it. The first mark has none before it,
and the last mark none after it.
-/
import HostedGit.Text.Cut
import Mathlib.Data.List.TakeWhile

namespace HostedGit.Text

variable {mark : Char} {cs before after : List Char}

/-! ## The first mark -/

theorem cut?_append_cons (h : mark ∉ before) : cut? mark (before ++ mark :: after) = some (before, after) := by
  induction before with
  | nil => exact if_pos rfl
  | cons c before ih =>
    obtain ⟨hc, hb⟩ := not_or.mp (mt List.mem_cons.mpr h)
    rw [List.cons_append, cut?, if_neg (Ne.symm hc), ih hb]
    rfl

/-- What is cut off at the first mark does not hold it. -/
theorem cut?_some (h : cut? mark cs = some (before, after)) : cs = before ++ mark :: after ∧ mark ∉ before := by
  induction cs generalizing before with
  | nil => cases h
  | cons c cs ih =>
    unfold cut? at h
    split at h
    · rename_i hc
      cases h
      exact ⟨by rw [hc]; rfl, List.not_mem_nil⟩
    · rename_i hc
      obtain ⟨⟨b, a⟩, hp, he⟩ := Option.map_eq_some_iff.mp h
      cases he
      obtain ⟨rfl, hb⟩ := ih hp
      exact ⟨rfl, List.not_mem_cons_of_ne_of_not_mem (Ne.symm hc) hb⟩

/-! ## The last mark -/

theorem cutLast?_eq_none_iff : cutLast? mark cs = none ↔ mark ∉ cs := by
  induction cs with
  | nil => exact ⟨fun _ => List.not_mem_nil, fun _ => rfl⟩
  | cons c cs ih =>
    unfold cutLast?
    rw [List.mem_cons, not_or, ← ih]
    cases hr : cutLast? mark cs with
    | some p => exact ⟨nofun, fun h => nomatch h.2⟩
    | none =>
      dsimp only
      split
      · rename_i hc
        exact ⟨nofun, fun h => absurd hc.symm h.1⟩
      · rename_i hc
        exact ⟨fun _ => ⟨Ne.symm hc, rfl⟩, fun _ => rfl⟩

theorem cutLast?_append (h : cutLast? mark cs = some (before, after)) (ds : List Char) :
    cutLast? mark (ds ++ cs) = some (ds ++ before, after) := by
  induction ds with
  | nil => exact h
  | cons d ds ih => rw [List.cons_append, cutLast?, ih, List.cons_append]

theorem cutLast?_append_cons (h : mark ∉ after) :
    cutLast? mark (before ++ mark :: after) = some (before, after) := by
  have last : cutLast? mark (mark :: after) = some ([], after) := by
    rw [cutLast?, cutLast?_eq_none_iff.mpr h]
    exact if_pos rfl
  rw [cutLast?_append last, List.append_nil]

/-- What stands after the last mark does not hold it. -/
theorem cutLast?_some (h : cutLast? mark cs = some (before, after)) :
    cs = before ++ mark :: after ∧ mark ∉ after := by
  induction cs generalizing before with
  | nil => cases h
  | cons c cs ih =>
    unfold cutLast? at h
    split at h
    · rename_i b a hr
      cases h
      obtain ⟨rfl, ha⟩ := ih hr
      exact ⟨rfl, ha⟩
    · rename_i hr
      split at h
      · rename_i hc
        cases h
        exact ⟨by rw [hc]; rfl, cutLast?_eq_none_iff.mp hr⟩
      · cases h

/-! ## Parts -/

/-- A text has something before an ending exactly if it ends so. -/
theorem beforeEnding?_eq_some_iff {ending : List Char} :
    beforeEnding? ending cs = some before ↔ cs = before ++ ending := by
  unfold beforeEnding?
  constructor
  · intro h
    split at h
    · rename_i he
      obtain ⟨front, rfl⟩ := List.isSuffixOf_iff_suffix.mp he
      cases h
      simp
    · cases h
  · rintro rfl
    simp

theorem occursIn_iff {part : List Char} : occursIn part cs = true ↔ part <:+: cs := by
  induction cs with
  | nil => simp [occursIn]
  | cons c cs ih => simp [occursIn, ih, List.infix_cons_iff]

/-! ## Where characters of a kind end -/

variable {p : Char → Bool}

theorem takeWhile_eq_append (h : cs.takeWhile p = before ++ after) :
    cs = before ++ (after ++ cs.dropWhile p) ∧ (after ++ cs.dropWhile p).takeWhile p = after := by
  have whole : before ++ (after ++ cs.dropWhile p) = cs := by
    rw [← List.append_assoc, ← h, List.takeWhile_append_dropWhile]
  have hb : ∀ x ∈ before, p x = true := fun x hx => List.mem_takeWhile_imp (h ▸ List.mem_append_left _ hx)
  have same : before ++ (after ++ cs.dropWhile p).takeWhile p = before ++ after := by
    rw [← List.takeWhile_append_of_pos hb, whole, h]
  exact ⟨whole.symm, List.append_cancel_left same⟩

/-- What is taken holds a mark exactly if nothing before the mark ends it. -/
theorem mem_takeWhile_iff : mark ∈ cs.takeWhile p ↔
    ∃ before after, cs = before ++ mark :: after ∧ (∀ x ∈ before, p x = true) ∧ p mark = true := by
  constructor
  · intro h
    obtain ⟨before, after, hs⟩ := List.append_of_mem h
    have all : ∀ x ∈ before ++ mark :: after, p x = true := fun x hx => List.mem_takeWhile_imp (hs ▸ hx)
    exact ⟨before, after ++ cs.dropWhile p, (takeWhile_eq_append hs).1,
      fun x hx => all x (List.mem_append_left _ hx), all mark (List.mem_append_right _ List.mem_cons_self)⟩
  · rintro ⟨before, after, rfl, hb, hc⟩
    rw [List.takeWhile_append_of_pos hb, List.takeWhile_cons_of_pos hc]
    exact List.mem_append_right _ List.mem_cons_self

theorem mem_of_mem_takeWhile (hm : p mark = false) : ∀ c ∈ (before ++ mark :: after).takeWhile p, c ∈ before := by
  intro c hc
  rw [List.takeWhile_append] at hc
  split at hc
  · rw [List.takeWhile_cons_of_neg (Bool.eq_false_iff.mp hm), List.append_nil] at hc
    exact hc
  · exact (List.takeWhile_sublist p).subset hc

theorem mem_dropWhile_of_mem (hm : p mark = false) : ∀ c ∈ after, c ∈ (before ++ mark :: after).dropWhile p := by
  intro c hc
  rw [List.dropWhile_append]
  split
  · rw [List.dropWhile_cons_of_neg (Bool.eq_false_iff.mp hm)]
    exact List.mem_cons_of_mem _ hc
  · exact List.mem_append_right _ (List.mem_cons_of_mem _ hc)

/-! ## Pieces -/

/-- A piece of a text holds what the text holds, but for the marks. -/
theorem mem_of_mem_splitOnP {piece : List Char} (h : piece ∈ cs.splitOnP p) : ∀ c ∈ piece, c ∈ cs ∧ p c = false := by
  induction cs generalizing piece with
  | nil =>
    rw [List.splitOnP_nil] at h
    cases List.mem_singleton.mp h
    nofun
  | cons x xs ih =>
    have later {c : Char} (hc : c ∈ xs ∧ p c = false) : c ∈ x :: xs ∧ p c = false :=
      ⟨List.mem_cons_of_mem _ hc.1, hc.2⟩
    rw [List.splitOnP_cons_eq_if_modifyHead] at h
    split at h
    · rcases List.mem_cons.mp h with rfl | h
      · nofun
      · exact fun c hc => later (ih h c hc)
    · rename_i hx
      obtain ⟨r, rs, hr⟩ := List.exists_cons_of_ne_nil (List.splitOnP_ne_nil p xs)
      rw [hr, List.modifyHead_cons] at h
      rcases List.mem_cons.mp h with rfl | h
      · intro c hc
        rcases List.mem_cons.mp hc with rfl | hc
        · exact ⟨List.mem_cons_self, Bool.eq_false_iff.mpr hx⟩
        · exact later (ih (hr ▸ List.mem_cons_self) c hc)
      · exact fun c hc => later (ih (hr ▸ List.mem_cons_of_mem _ h) c hc)

end HostedGit.Text
