/-
Characters that count for nothing. A text is read as if they were not there: cleaning it drops the blanks
around it and the tabs and line ends inside it, and no mark that a URL is cut at is one of those.
-/
import HostedGit.Proofs.Text.Cut
import HostedGit.Proofs.Url.Parsed
import Mathlib.Data.List.DropRight

namespace HostedGit.Url

/-- The characters that count. -/
def counted (cs : List Char) : List Char := cs.filter (!isIgnored ·)

/-- The characters that count in the last part of a text. -/
def countedToEnd (cs : List Char) : List Char := counted (cs.rdropWhile isBlank)

variable {c : Char} {cs before after : List Char}

/-! ## Cutting -/

theorem isIgnored_of_not_isBlank (hc : isBlank c = false) : isIgnored c = false := by
  refine Bool.eq_false_iff.mpr fun hi => ?_
  unfold isIgnored at hi
  simp only [Bool.or_eq_true, decide_eq_true_eq] at hi
  rcases hi with (rfl | rfl) | rfl <;> cases hc

theorem rdropWhile_append_cons {p : Char → Bool} (hc : p c = false) :
    (before ++ c :: after).rdropWhile p = before ++ c :: after.rdropWhile p := by
  unfold List.rdropWhile
  have whole : (before ++ c :: after).reverse = after.reverse ++ c :: before.reverse := by
    rw [List.reverse_append, List.reverse_cons, List.append_assoc]
    rfl
  rw [whole, List.dropWhile_append]
  split
  · rename_i he
    rw [List.dropWhile_cons_of_neg (Bool.eq_false_iff.mp hc), List.isEmpty_iff.mp he, List.reverse_cons,
      List.reverse_reverse]
    rfl
  · rw [List.reverse_append, List.reverse_cons, List.reverse_reverse, List.append_assoc]
    rfl

theorem countedToEnd_eq_self (h : ∀ c ∈ cs, isBlank c = false) : countedToEnd cs = cs := by
  have blank : cs.reverse.dropWhile isBlank = cs.reverse := by
    cases hr : cs.reverse with
    | nil => rfl
    | cons c rest => simp [h c (List.mem_reverse.mp (hr ▸ List.mem_cons_self))]
  unfold countedToEnd counted List.rdropWhile
  rw [blank, List.reverse_reverse]
  exact List.filter_eq_self.mpr fun c hc => by simp [isIgnored_of_not_isBlank (h c hc)]

theorem countedToEnd_append_cons (hc : isBlank c = false) :
    countedToEnd (before ++ c :: after) = counted before ++ c :: countedToEnd after := by
  unfold countedToEnd counted
  rw [rdropWhile_append_cons hc, List.filter_append,
    List.filter_cons_of_pos (by rw [isIgnored_of_not_isBlank hc]; rfl)]

theorem exists_of_counted_append (h : counted cs = before ++ after) :
    ∃ b a, cs = b ++ a ∧ counted b = before ∧ counted a = after :=
  List.filter_eq_append_iff.mp h

theorem exists_of_counted (h : counted cs = before ++ c :: after) :
    ∃ b a, cs = b ++ c :: a ∧ counted b = before ∧ counted a = after := by
  obtain ⟨x, _, rfl, rfl, hy⟩ := exists_of_counted_append h
  obtain ⟨y, z, rfl, hskip, -, hz⟩ := List.filter_eq_cons_iff.mp hy
  refine ⟨x ++ y, z, (List.append_assoc _ _ _).symm, ?_, hz⟩
  unfold counted
  rw [List.filter_append, List.filter_eq_nil_iff.mpr hskip, List.append_nil]

/-- A text whose counting characters are cut at a mark is itself cut there. -/
theorem exists_of_countedToEnd (hc : isBlank c = false) (h : countedToEnd cs = before ++ c :: after) :
    ∃ b a, cs = b ++ c :: a ∧ counted b = before ∧ countedToEnd a = after := by
  obtain ⟨b, a, hcut, hb, -⟩ := exists_of_counted h
  -- the blanks at the end belong to what follows the mark
  have whole : cs = b ++ c :: (a ++ cs.rtakeWhile isBlank) := by
    conv_lhs => rw [← List.rdropWhile_append_rtakeWhile (p := isBlank) (l := cs), hcut]
    rw [List.append_assoc, List.cons_append]
  refine ⟨_, _, whole, hb, ?_⟩
  rw [whole, countedToEnd_append_cons hc, hb] at h
  exact (List.cons.inj (List.append_cancel_left h)).2

/-! ## Marks -/

theorem counted_append (cs ds : List Char) : counted (cs ++ ds) = counted cs ++ counted ds :=
  List.filter_append cs ds

theorem mem_counted : c ∈ counted cs ↔ c ∈ cs ∧ isIgnored c = false := by
  unfold counted
  rw [List.mem_filter, Bool.not_eq_true']

/-- A mark that stands before any of some others also does in what counts, and the other way around. -/
theorem mem_takeWhile_countedToEnd {p : Char → Bool} (hp : ∀ x, p x = false → isIgnored x = false)
    (hc : isBlank c = false) : c ∈ (countedToEnd cs).takeWhile p ↔ c ∈ cs.takeWhile p := by
  rw [Text.mem_takeWhile_iff, Text.mem_takeWhile_iff]
  constructor
  · rintro ⟨before, after, h, hb, hpc⟩
    obtain ⟨b, a, rfl, rfl, -⟩ := exists_of_countedToEnd hc h
    refine ⟨b, a, rfl, fun x hx => ?_, hpc⟩
    by_contra hpx
    have hpx := Bool.eq_false_iff.mpr hpx
    rw [hb x (mem_counted.mpr ⟨hx, hp x hpx⟩)] at hpx
    cases hpx
  · rintro ⟨b, a, rfl, hb, hpc⟩
    exact ⟨counted b, countedToEnd a, countedToEnd_append_cons hc, fun x hx => hb x (mem_counted.mp hx).1, hpc⟩

/-! ## Whole URLs -/

theorem clean_append_cons (hc : isBlank c = false) (hb : ∀ x ∈ before, isBlank x = false) :
    clean (before ++ c :: after) = before ++ c :: countedToEnd after := by
  have start : (before ++ c :: after).dropWhile isBlank = before ++ c :: after := by
    cases before with
    | nil => exact List.dropWhile_cons_of_neg (Bool.eq_false_iff.mp hc)
    | cons x xs => exact List.dropWhile_cons_of_neg (Bool.eq_false_iff.mp (hb x List.mem_cons_self))
  have kept : counted before = before :=
    List.filter_eq_self.mpr fun x hx => by rw [isIgnored_of_not_isBlank (hb x hx)]; rfl
  calc clean (before ++ c :: after) = countedToEnd (before ++ c :: after) := by
        unfold clean countedToEnd counted List.rdropWhile
        rw [start]
    _ = before ++ c :: countedToEnd after := by rw [countedToEnd_append_cons hc, kept]

/-- How a text is read that starts with a scheme that requests are made by. -/
theorem parse_schemed {scheme : List Char} (h : Scheme.isHttp scheme = true) (rest : List Char) :
    parse (scheme ++ "://".toList ++ rest) =
      readAfterSlashes scheme ((countedToEnd rest).dropWhile (isSlash true)) := by
  have cut : ∀ rest, scheme ++ "://".toList ++ rest = (scheme ++ ":/".toList) ++ '/' :: rest := by
    intro rest
    rw [List.append_assoc, List.append_assoc]
    rfl
  have cleaned : clean (scheme ++ "://".toList ++ rest) = scheme ++ "://".toList ++ countedToEnd rest := by
    have hb : (scheme ++ ":/".toList).all (!isBlank ·) = true := by
      rcases Scheme.eq_of_isHttp h with rfl | rfl <;> rfl
    rw [cut, clean_append_cons rfl fun x hx => (Bool.not_eq_true' _).mp (List.all_eq_true.mp hb x hx), ← cut]
  have read : scheme? (scheme ++ "://".toList ++ countedToEnd rest) =
      some (scheme, "//".toList ++ countedToEnd rest) := by
    rcases Scheme.eq_of_isHttp h with rfl | rfl <;> rfl
  unfold parse
  rw [cleaned, read]
  dsimp only
  rw [readAfterScheme_http h]
  rfl

end HostedGit.Url
