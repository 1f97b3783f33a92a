/-
What the changes of a tree that can fail come to: when each of them is made, what can be looked up after it, and what
is locked then.
-/
import HostedGit.FileTree

namespace HostedGit.FileTree

variable {t t' : FileTree} {p q : Path} {content : Octets} {target : String}

theorem ne_nil_of_lookup_none (h : t.lookup p = none) : p ≠ [] := by
  rintro rfl
  cases h

/-- A place that takes something new: nothing is there, and the directory that leads to it is not locked. -/
def IsVacant (t : FileTree) (p : Path) : Prop := t.lookup p = none ∧ t.isLocked p.dropLast = false

/-- A place whose content can be written: a file that is not locked. -/
def IsRewritable (t : FileTree) (p : Path) : Prop := (∃ old, t.lookup p = some (.file old)) ∧ t.isLocked p = false

instance (t : FileTree) (p : Path) : Decidable (t.IsVacant p) := inferInstanceAs (Decidable (_ ∧ _))

/-! ## When changes are made -/

theorem make?_eq_some_iff {n : Node} : t.make? p n = some t' ↔ t.isLocked p.dropLast = false ∧ t' = t.put p n := by
  unfold make?
  cases t.isLocked p.dropLast <;> simp [eq_comm]

/-- A directory is added exactly if there is room for one, or there is one. -/
theorem addDirectory?_eq_some_iff : t.addDirectory? p = some t' ↔
    t.IsVacant p ∧ t' = t.put p .directory ∨ t.lookup p = some .directory ∧ t' = t := by
  unfold addDirectory? IsVacant
  rcases t.lookup p with _ | _ | _ | _
  · simp [make?_eq_some_iff]
  · simp [@eq_comm _ t']
  all_goals simp

/-- A directory is opened exactly if one can be added, and is not locked then. -/
theorem openDirectory?_eq_some_iff : t.openDirectory? p = some t' ↔
    ∃ made, t.addDirectory? p = some made ∧ t' = made.setLocked p false := by
  unfold openDirectory?
  simp only [Option.map_eq_some_iff, @eq_comm _ t']

/-- A file is written exactly if there is room for one, or there is one that is not locked. -/
theorem writeFile?_eq_some_iff : t.writeFile? p content = some t' ↔
    (t.IsVacant p ∨ t.IsRewritable p) ∧ t' = t.put p (.file content) := by
  unfold writeFile? IsVacant IsRewritable
  rcases t.lookup p with _ | _ | old | _
  · simp [make?_eq_some_iff]
  · simp
  · cases t.isLocked p <;> simp [@eq_comm _ t']
  · simp

/-- A link never takes the place of anything. -/
theorem addLink?_eq_some_iff : t.addLink? p target = some t' ↔ t.IsVacant p ∧ t' = t.put p (.link target) := by
  unfold addLink? IsVacant
  rcases t.lookup p with _ | _ <;> simp [make?_eq_some_iff]

/-! ## What can be looked up afterwards -/

theorem IsRewritable.ne_nil (h : t.IsRewritable p) : p ≠ [] := by
  rintro rfl
  obtain ⟨⟨_, hf⟩, -⟩ := h
  cases hf

theorem lookup_addDirectory? (h : t.addDirectory? p = some t') (q : Path) :
    t'.lookup q = if q = p then some .directory else t.lookup q := by
  rcases addDirectory?_eq_some_iff.mp h with ⟨vacant, rfl⟩ | ⟨there, rfl⟩
  · exact t.lookup_put p q _ (ne_nil_of_lookup_none vacant.1)
  · split
    · rename_i he
      rw [he, there]
    · rfl

theorem lookup_openDirectory? (h : t.openDirectory? p = some t') (q : Path) :
    t'.lookup q = if q = p then some .directory else t.lookup q := by
  obtain ⟨made, hm, rfl⟩ := openDirectory?_eq_some_iff.mp h
  rw [lookup_setLocked]
  exact lookup_addDirectory? hm q

theorem lookup_writeFile? (h : t.writeFile? p content = some t') (q : Path) :
    t'.lookup q = if q = p then some (.file content) else t.lookup q := by
  obtain ⟨free, rfl⟩ := writeFile?_eq_some_iff.mp h
  refine t.lookup_put p q _ ?_
  rcases free with vacant | rewritable
  · exact ne_nil_of_lookup_none vacant.1
  · exact rewritable.ne_nil

theorem lookup_addLink? (h : t.addLink? p target = some t') (q : Path) :
    t'.lookup q = if q = p then some (.link target) else t.lookup q := by
  obtain ⟨vacant, rfl⟩ := addLink?_eq_some_iff.mp h
  exact t.lookup_put p q _ (ne_nil_of_lookup_none vacant.1)

/-! ## What is locked afterwards -/

/-- A tree that changes have come to which lock nothing and do not write to what is locked. -/
structure Loosened (t t' : FileTree) : Prop where
  /-- What is locked was locked. -/
  locked : ∀ q, t'.isLocked q = true → t.isLocked q = true
  /-- A file that was locked is as it was, and locked. -/
  file : ∀ q old, t.lookup q = some (.file old) → t.isLocked q = true →
    t'.lookup q = some (.file old) ∧ t'.isLocked q = true

theorem Loosened.refl (t : FileTree) : t.Loosened t := ⟨fun _ h => h, fun _ _ hf h => ⟨hf, h⟩⟩

theorem Loosened.trans {t'' : FileTree} (h : t.Loosened t') (h' : t'.Loosened t'') : t.Loosened t'' where
  locked q hq := h.locked q (h'.locked q hq)
  file q old hf hq := by
    obtain ⟨hf, hq⟩ := h.file q old hf hq
    exact h'.file q old hf hq

/-- What was not locked is not locked. -/
theorem Loosened.unlocked (h : t.Loosened t') (hq : t.isLocked q = false) : t'.isLocked q = false := by
  cases locked : t'.isLocked q with
  | false => rfl
  | true => exact absurd (h.locked q locked) (Bool.eq_false_iff.mp hq)

/-- Neither something new nor another content of a file that is not locked is locked. -/
theorem loosened_put (h : t.IsVacant p ∨ t.IsRewritable p) (n : Node) : t.Loosened (t.put p n) where
  locked q hq := by
    rw [isLocked_put] at hq
    split at hq
    · cases hq
    · exact hq
  file q old hf hq := by
    have hp : p ≠ [] := h.elim (fun vacant => ne_nil_of_lookup_none vacant.1) IsRewritable.ne_nil
    have hne : q ≠ p := by
      rintro rfl
      rcases h with ⟨hnone, -⟩ | ⟨-, free⟩
      · rw [hnone] at hf
        cases hf
      · rw [free] at hq
        cases hq
    rw [t.lookup_put p q n hp, isLocked_put, if_neg hne, if_neg hne]
    exact ⟨hf, hq⟩

theorem loosened_addDirectory? (h : t.addDirectory? p = some t') : t.Loosened t' := by
  rcases addDirectory?_eq_some_iff.mp h with ⟨vacant, rfl⟩ | ⟨-, rfl⟩
  · exact loosened_put (.inl vacant) _
  · exact .refl _

theorem loosened_openDirectory? (h : t.openDirectory? p = some t') : t.Loosened t' := by
  obtain ⟨made, hm, rfl⟩ := openDirectory?_eq_some_iff.mp h
  have there : made.lookup p = some .directory := by
    rw [lookup_addDirectory? hm, if_pos rfl]
  refine (loosened_addDirectory? hm).trans ⟨fun q hq => ?_, fun q old hf hq => ⟨hf, ?_⟩⟩
  · rw [isLocked_setLocked] at hq
    split at hq
    · cases hq
    · exact hq
  · rw [isLocked_setLocked, if_neg, hq]
    rintro rfl
    rw [there] at hf
    cases hf

end HostedGit.FileTree
