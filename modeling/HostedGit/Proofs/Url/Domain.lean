/-
Domain names. Small letters, digits and dots are shown as they stand: a name of nothing else is its own
form, and one that ends with a dot and such characters still does, whatever stands before them.
-/
import HostedGit.Proofs.Text.Composition
import HostedGit.Proofs.Text.Cut
import HostedGit.Proofs.Text.Percent
import HostedGit.Url.Domain
import Mathlib.Data.List.Basic

namespace HostedGit

namespace Domain

variable {name ending host label : List Char} {c : Char}

/-! ## Shown characters -/

/-- A character that every domain name shows as it is written. -/
def isShown (c : Char) : Bool := c.isLower || c.isDigit || c = '.'

/-- A text of such characters. -/
def Shown (cs : List Char) : Prop := ∀ c ∈ cs, isShown c = true

instance (cs : List Char) : Decidable (Shown cs) := List.decidableBAll _ cs

/-- A shown character is small, and neither a dash nor refused nor one that a URL reads otherwise. -/
theorem of_isShown (h : isShown c = true) :
    c.toLower = c ∧ c.toNat < 0x80 ∧ c ∉ ['-', '%', '[', '\t', '\n', '\r'] ∧ isForbidden c = false := by
  have small : c.toNat < 0x80 := by
    have alphanumeric : c.isAlphanum = (c.isUpper || c.isLower || c.isDigit) := rfl
    refine Percent.toNat_lt_of_isUnreserved ?_
    simp only [isShown, Bool.or_eq_true, decide_eq_true_eq] at h
    rcases h with (h | h) | rfl
    · simp [Percent.isUnreserved, alphanumeric, h]
    · simp [Percent.isUnreserved, alphanumeric, h]
    · decide
  exact Utf8.of_ascii (P := fun c => isShown c = true → c.toLower = c ∧ c.toNat < 0x80 ∧
    c ∉ ['-', '%', '[', '\t', '\n', '\r'] ∧ isForbidden c = false) (by decide) small h

theorem Shown.not_mem (h : Shown name) (hc : isShown c = false) : c ∉ name := fun hm => by
  rw [h c hm] at hc
  cases hc

theorem Shown.small (h : Shown name) : name.map Char.toLower = name :=
  (List.map_congr_left fun c hc => (of_isShown (h c hc)).1).trans (List.map_id _)

theorem Shown.ascii (h : Shown name) : ∀ c ∈ name, c.toNat < 0x80 := fun c hc => (of_isShown (h c hc)).2.1

/-! ## Labels -/

theorem isPrefixOf?_mark (h : Shown label) : mark.isPrefixOf? label = none := by
  cases hp : mark.isPrefixOf? label with
  | none => rfl
  | some rest =>
    have dash : '-' ∈ label := by
      rw [← List.append_eq_of_isPrefixOf?_eq_some hp]
      exact List.mem_append_left _ (by decide)
    exact absurd dash (h.not_mem (by decide))

theorem read?_of_shown (h : Shown label) : read? label = some label := by
  rw [read?, isPrefixOf?_mark h]

theorem write?_of_shown (h : Shown label) : write? label = some label := by
  refine if_pos (List.all_eq_true.mpr fun c hc => ?_)
  simpa using h.ascii c hc

theorem mapM_eq_some {α β : Type} {f : α → Option β} {g : α → β} {xs : List α} (h : ∀ x ∈ xs, f x = some (g x)) :
    xs.mapM f = some (xs.map g) := by
  induction xs with
  | nil => rfl
  | cons x xs ih =>
    rw [List.mapM_cons, h x (by simp), ih fun y hy => h y (by simp [hy])]
    rfl

theorem ne_nil_of_mapM {α β : Type} {f : α → Option β} {xs : List α} {ys : List β} (h : xs.mapM f = some ys)
    (hx : xs ≠ []) : ys ≠ [] := by
  cases xs with
  | nil => exact absurd rfl hx
  | cons x xs =>
    rw [List.mapM_cons] at h
    obtain ⟨y, -, h⟩ := Option.bind_eq_some_iff.mp h
    obtain ⟨rest, -, h⟩ := Option.bind_eq_some_iff.mp h
    cases h
    simp

theorem mem_intercalate {labels : List (List Char)} (hl : label ∈ labels) (hc : c ∈ label) :
    c ∈ ".".toList.intercalate labels := by
  induction labels with
  | nil => cases hl
  | cons l labels ih =>
    by_cases he : labels = []
    · subst he
      cases List.mem_singleton.mp hl
      simpa using hc
    · rw [List.intercalate_cons_of_ne_nil he]
      rcases List.mem_cons.mp hl with rfl | hl
      · simp [hc]
      · exact List.mem_append_right _ (ih hl)

theorem intercalate_append {xs ys : List (List Char)} (hx : xs ≠ []) (hy : ys ≠ []) :
    ".".toList.intercalate (xs ++ ys) = ".".toList.intercalate xs ++ '.' :: ".".toList.intercalate ys := by
  induction xs with
  | nil => exact absurd rfl hx
  | cons x xs ih =>
    by_cases he : xs = []
    · subst he
      rw [List.cons_append, List.nil_append, List.intercalate_cons_of_ne_nil hy]
      simp
    · rw [List.cons_append, List.intercalate_cons_of_ne_nil (by simp [he]), ih he, List.intercalate_cons_of_ne_nil he]
      simp

theorem Shown.labels (h : Shown name) : ∀ label ∈ name.splitOn '.', Shown label := by
  intro label hl c hc
  refine h c ?_
  have joined : ['.'].intercalate (name.splitOn '.') = name := List.intercalate_splitOn '.'
  rw [← joined]
  exact mem_intercalate hl hc

/-- A name in shown characters stands for itself. -/
theorem toAscii?_of_shown (h : Shown name) : toAscii? name = some name := by
  have plain : isPlain name = true := by
    simp only [isPlain, isAscii, Bool.and_eq_true, List.all_eq_true, decide_eq_true_eq, Bool.not_eq_true']
    refine ⟨h.ascii, fun label hl => Bool.eq_false_iff.mpr fun hm => ?_⟩
    have dash : '-' ∈ label := (List.isPrefixOf_iff_prefix.mp hm).subset (by decide)
    exact absurd dash ((h.labels label hl).not_mem (by decide))
  have clean : name.any isForbidden = false := by simpa using fun c hc => (of_isShown (h c hc)).2.2.2
  simp [toAscii?, h.small, plain, clean]

/-! ## Endings -/

/-- Shown characters at the end of a name take no part in its normal form. -/
theorem normalForm?_append (h : Shown ending) (name : List Char) :
    normalForm? (name ++ ending) = (normalForm? name).map (· ++ ending) := by
  have written : ending.mapM Idna.Mapping.written? = some (ending.map fun c => [c]) := by
    refine mapM_eq_some fun c hc => ?_
    rw [Idna.Mapping.written?, if_pos (h.ascii c hc), (of_isShown (h c hc)).1]
  unfold normalForm?
  rw [List.mapM_append, written]
  cases name.mapM Idna.Mapping.written? with
  | none => rfl
  | some parts =>
    have flat : (ending.map fun c => [c]).flatten = ending := List.flatMap_singleton' ending
    show some (Composition.normalize (parts ++ ending.map fun c => [c]).flatten) = _
    rw [List.flatten_append, flat, Composition.normalize_append h.ascii]
    rfl

/-- A name with other characters ends as it is written to, too. -/
theorem international?_suffix (hs : Shown ending) (h : international? (name ++ '.' :: ending) = some host) :
    '.' :: ending <:+ host := by
  have dotted : Shown ('.' :: ending) := by
    intro c hc
    rcases List.mem_cons.mp hc with rfl | hc
    · decide
    · exact hs c hc
  have read : (ending.splitOn '.').mapM read? = some (ending.splitOn '.') := by
    simpa using mapM_eq_some (g := id) fun label hl => read?_of_shown (hs.labels label hl)
  have write : (ending.splitOn '.').mapM write? = some (ending.splitOn '.') := by
    simpa using mapM_eq_some (g := id) fun label hl => write?_of_shown (hs.labels label hl)
  unfold international? at h
  rw [normalForm?_append dotted] at h
  obtain ⟨form, hform, h⟩ := Option.bind_eq_some_iff.mp h
  obtain ⟨front, -, rfl⟩ := Option.map_eq_some_iff.mp hform
  rw [List.splitOn_append_cons_self] at h
  split at h
  · cases h
  obtain ⟨labels, hlabels, h⟩ := Option.bind_eq_some_iff.mp h
  rw [List.mapM_append, read] at hlabels
  obtain ⟨first, hfirst, hlabels⟩ := Option.bind_eq_some_iff.mp hlabels
  cases hlabels
  split at h
  · cases h
  obtain ⟨texts, htexts, h⟩ := Option.bind_eq_some_iff.mp h
  cases h
  rw [List.mapM_append, write] at htexts
  obtain ⟨shown, hshown, htexts⟩ := Option.bind_eq_some_iff.mp htexts
  cases htexts
  have front_ne : shown ≠ [] := ne_nil_of_mapM hshown (ne_nil_of_mapM hfirst (List.splitOn_ne_nil _ _))
  rw [intercalate_append front_ne (List.splitOn_ne_nil _ _)]
  show '.' :: ending <:+ _ ++ '.' :: ['.'].intercalate (ending.splitOn '.')
  rw [List.intercalate_splitOn]
  exact List.suffix_append _ _

/-- A domain name ends as it is written to. -/
theorem toAscii?_suffix (hs : Shown ending) (h : toAscii? (name ++ '.' :: ending) = some host) :
    '.' :: ending <:+ host := by
  unfold toAscii? at h
  dsimp only at h
  split at h
  · split at h
    · cases h
    · cases h
      rw [List.map_append, List.map_cons, hs.small]
      exact List.suffix_append _ _
  · exact international?_suffix hs h

end Domain

end HostedGit
