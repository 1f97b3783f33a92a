/-
ASCII in composed text. No mark and no character that is taken apart or taken in is ASCII, so an ending in
ASCII stays as it is, whatever stands before it.
-/
import HostedGit.Text.Composition

namespace HostedGit

/-! ## Reading the tables -/

/-- The parts of a written table. -/
def pieces (text : List Char) : List (List Char) := (text.splitOnP fun c => c = ' ' || c = '\n').filter (!·.isEmpty)

/-- A literal is read off its characters. -/
theorem CodePoints.ranges_ofText {text : String} {cs : List Char} (h : text = String.ofList cs) :
    (CodePoints.ofText text).ranges = (pieces cs).map CodePoints.readRange := by
  rw [h, CodePoints.ofText, String.toList_ofList]
  rfl

theorem CodeMap.rows_ofText {text : String} {cs : List Char} (h : text = String.ofList cs) :
    (CodeMap.ofText text).rows = (pieces cs).filterMap CodeRow.ofChars? := by
  rw [h, CodeMap.ofText, String.toList_ofList]
  rfl

namespace Composition

/-- A set without ASCII. -/
def isAbove (s : CodePoints) : Bool := s.ranges.all fun r => 0x80 ≤ r.1

/-- A row for a character outside ASCII, with nothing of ASCII behind the first target. -/
def isRowAbove (r : CodeRow) : Bool := 0x80 ≤ r.first && (r.targets.drop 1).all (0x80 ≤ ·)

theorem isAbove_ofText {text : String} {cs : List Char} (h : text = String.ofList cs)
    (hc : ((pieces cs).map CodePoints.readRange).all (fun r => 0x80 ≤ r.1) = true) : isAbove (.ofText text) = true := by
  rw [isAbove, CodePoints.ranges_ofText h, hc]

set_option maxRecDepth 10000 in
theorem classes_above : ∀ p ∈ classes, isAbove p.2 = true := by
  unfold classes
  simp only [List.forall_mem_cons, List.not_mem_nil, false_implies, implies_true, and_true]
  and_intros <;> exact isAbove_ofText rfl (by decide +kernel)

set_option maxRecDepth 200000 in
theorem composites_above : composites.rows.all isRowAbove = true := by
  unfold composites
  rw [CodeMap.rows_ofText rfl]
  decide +kernel

/-! ## ASCII -/

variable {c : Char} {xs ys : List Char}

theorem classOf_ascii (hc : c.toNat < 0x80) : classOf c = 0 := by
  have none : classes.find? (·.2.contains c) = none := by
    refine List.find?_eq_none.mpr fun p hp hm => ?_
    obtain ⟨r, hr, hin⟩ := List.any_eq_true.mp hm
    have above := List.all_eq_true.mp (classes_above p hp) r hr
    simp only [Bool.and_eq_true, decide_eq_true_eq] at above hin
    omega
  rw [classOf, none]
  rfl

theorem parts_ascii (hc : c.toNat < 0x80) (fuel : Nat) : parts fuel c = [c] := by
  have syllable : syllableParts? c = none := if_pos (.inl (Nat.lt_trans hc (by decide)))
  have composite : composites.lookup? c = none := by
    refine List.findSome?_eq_none_iff.mpr fun r hr => if_pos (.inl ?_)
    have above := List.all_eq_true.mp composites_above r hr
    simp only [isRowAbove, Bool.and_eq_true, decide_eq_true_eq] at above
    omega
  cases fuel with
  | zero => rfl
  | succ fuel => simp [parts, syllable, composite]

/-- Nothing takes in an ASCII character. -/
theorem pair?_ascii (hc : c.toNat < 0x80) (base : Char) : pair? base c = none := by
  have syllable : syllable? base c = none := by
    unfold syllable?
    dsimp only
    rw [if_neg (by omega), if_neg (by omega)]
  have composite : composites.keyOf? [base, c] = none := by
    unfold CodeMap.keyOf?
    rw [List.find?_eq_none.mpr fun r hr he => ?_, Option.map_none]
    have above := List.all_eq_true.mp composites_above r hr
    simp only [List.map_cons, List.map_nil, decide_eq_true_eq] at he
    simp only [isRowAbove, he, Bool.and_eq_true, decide_eq_true_eq, List.drop_succ_cons, List.drop_zero, List.all_cons,
      List.all_nil, and_true] at above
    omega
  rw [pair?, syllable, composite]
  rfl

/-! ## Endings -/

theorem order_append (hy : ∀ c ∈ ys, c.toNat < 0x80) (done : List Char) :
    order done (xs ++ ys) = order done xs ++ ys := by
  induction xs generalizing done with
  | nil =>
    induction ys generalizing done with
    | nil => simp
    | cons c ys ih =>
      have rest := ih (fun d hd => hy d (by simp [hd])) (c :: done)
      simp only [List.nil_append, order] at rest ⊢
      simp [classOf_ascii (hy c (by simp)), rest]
  | cons x xs ih => exact ih _

theorem composeFrom_append (hy : ∀ c ∈ ys, c.toNat < 0x80) (base : Char) (marks : List Char) :
    composeFrom base marks (xs ++ ys) = composeFrom base marks xs ++ ys := by
  induction xs generalizing base marks with
  | nil =>
    induction ys generalizing base marks with
    | nil => simp
    | cons c ys ih =>
      have hc := hy c (by simp)
      have rest := ih (fun d hd => hy d (by simp [hd])) c []
      simp only [List.nil_append, composeFrom] at rest ⊢
      simp [pair?_ascii hc, classOf_ascii hc, rest]
  | cons x xs ih =>
    simp only [List.cons_append, composeFrom]
    split
    · exact ih _ _
    · split
      · simp [ih]
      · exact ih _ _

theorem compose_append (hy : ∀ c ∈ ys, c.toNat < 0x80) : compose (xs ++ ys) = compose xs ++ ys := by
  induction xs with
  | nil =>
    cases ys with
    | nil => rfl
    | cons c ys =>
      have rest : composeFrom c [] ([] ++ ys) = composeFrom c [] [] ++ ys :=
        composeFrom_append (fun d hd => hy d (List.mem_cons_of_mem _ hd)) c []
      simpa [compose, classOf_ascii (hy c (by simp)), composeFrom] using rest
  | cons x xs ih =>
    simp only [List.cons_append, compose]
    split
    · exact composeFrom_append hy _ _
    · rw [ih, List.cons_append]

/-- An ending in ASCII stays as it is. -/
theorem normalize_append (hy : ∀ c ∈ ys, c.toNat < 0x80) : normalize (xs ++ ys) = normalize xs ++ ys := by
  have whole : ys.flatMap (parts depth) = ys := by
    induction ys with
    | nil => rfl
    | cons c ys ih =>
      rw [List.flatMap_cons, parts_ascii (hy c (by simp)), ih fun d hd => hy d (by simp [hd])]
      rfl
  rw [normalize, List.flatMap_append, whole, order_append hy, compose_append hy]
  rfl

end Composition

end HostedGit
