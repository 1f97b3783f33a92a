/-
Values of JSON that nobody asks for. Whatever their kind and depth, and however they are written, they are passed
over up to what comes behind them.
-/
import HostedGit.Json.Skip
import HostedGit.Proofs.Json.Text

namespace HostedGit.Json

variable {s t u r : Octets}

/-! ## Numbers -/

theorem eq_of_isSpace {b : UInt8} (h : isSpace b = true) : b = 0x20 ∨ b = 0x0A ∨ b = 0x09 ∨ b = 0x0D := by
  simpa [isSpace, or_assoc] using h

/-- What may come behind a value does not go on with a number. -/
theorem Ends.not_mem {b : UInt8} (h : Ends (b :: r)) :
    isDigit b = false ∧ b ≠ 0x2E ∧ b ≠ 0x65 ∧ b ≠ 0x45 := by
  rcases h b rfl with h | rfl | rfl | rfl
  · rcases eq_of_isSpace h with rfl | rfl | rfl | rfl <;> decide
  all_goals decide

/-- No digit comes next. -/
def NoDigit (r : Octets) : Prop := ∀ b ∈ r.head?, isDigit b = false

theorem NoDigit.cons {b : UInt8} (h : isDigit b = false) : NoDigit (b :: r) := by
  intro c hc
  cases hc
  exact h

theorem Ends.noDigit (h : Ends r) : NoDigit r := by
  cases r with
  | nil => exact nofun
  | cons b r => exact .cons h.not_mem.1

theorem skipDigits_append {ds : Octets} (hd : ∀ x ∈ ds, isDigit x = true) (hr : NoDigit r) :
    ∃ h, skipDigits (ds ++ r) = ⟨r, h⟩ := ⟨by simp, Subtype.ext (dropWhile_append hd hr)⟩

/-- A sign and digits are an exponent. -/
theorem skipExponent_leaves (hs : Signed s t) (hd : DigitRow t r) (hr : NoDigit r) : Leaves (skipExponent s) r := by
  obtain ⟨d, ds, hd, rfl⟩ := hd
  have first := hd d List.mem_cons_self
  obtain ⟨_, hx⟩ := skipDigits_append (fun x hx => hd x (List.mem_cons_of_mem d hx)) hr
  cases hs with
  | none =>
    -- a digit is no sign
    have plus : d ≠ 0x2B := by
      rintro rfl
      exact absurd first (by decide)
    have minus : d ≠ 0x2D := by
      rintro rfl
      exact absurd first (by decide)
    simp [Leaves, skipExponent, plus, minus, first, hx, Tail.whole]
    omega
  | plus | minus =>
    unfold skipExponent
    simp only [List.cons_append, first, if_true, hx]
    exact ⟨_, rfl⟩

theorem Power.noDigit (h : Power s r) (hr : Ends r) : NoDigit s := by
  cases h with
  | none => exact hr.noDigit
  | some he _ _ => exact .cons (by rcases he with rfl | rfl <;> decide)

/-- Digits and an exponent, if there is one, are places. -/
theorem skipPlaces_leaves (hd : DigitRow s t) (hp : Power t r) (hr : Ends r) : Leaves (skipPlaces s) r := by
  obtain ⟨d, ds, hd, rfl⟩ := hd
  have first := hd d List.mem_cons_self
  obtain ⟨_, hx⟩ := skipDigits_append (fun x hx => hd x (List.mem_cons_of_mem d hx)) (hp.noDigit hr)
  unfold skipPlaces
  simp only [List.cons_append, first, Bool.not_true, Bool.false_eq_true, if_false, hx]
  cases hp with
  | none =>
    cases t with
    | nil => exact ⟨_, rfl⟩
    | cons b t =>
      obtain ⟨-, -, he, he'⟩ := hr.not_mem
      dsimp only
      rw [if_neg (by simp [he, he'])]
      exact ⟨_, rfl⟩
  | some he hs hd =>
    obtain ⟨_, hy⟩ := skipExponent_leaves hs hd hr.noDigit
    dsimp only
    rw [if_pos he, hy]
    exact ⟨_, rfl⟩

theorem skipFraction_leaves (hs : Places s t) (hp : Power t r) (hr : Ends r) : Leaves (skipFraction s) r := by
  cases hs with
  | some hd =>
    obtain ⟨_, hx⟩ := skipPlaces_leaves hd hp hr
    simp only [skipFraction, if_true, hx]
    exact ⟨_, rfl⟩
  | none =>
    cases hp with
    | none =>
      cases s with
      | nil => exact ⟨_, rfl⟩
      | cons b s =>
        obtain ⟨-, hpoint, he, he'⟩ := hr.not_mem
        simp only [skipFraction, hpoint, he, he', or_self, if_false]
        exact ⟨_, rfl⟩
    | @some e u t _ he hs hd =>
      obtain ⟨_, hx⟩ := skipExponent_leaves hs hd hr.noDigit
      have point : e ≠ 0x2E := by rcases he with rfl | rfl <;> decide
      simp only [skipFraction, point, he, if_false, if_true, hx]
      exact ⟨_, rfl⟩

theorem Places.noDigit (h : Places s t) (hp : Power t r) (hr : Ends r) : NoDigit s := by
  cases h with
  | none => exact hp.noDigit hr
  | some _ => exact .cons (by decide)

theorem Magnitude.begins (h : Magnitude s r) : ∃ d t, s = d :: t ∧ isDigit d = true := by
  obtain ⟨t, u, hw, -, -⟩ := h
  cases hw with
  | zero => exact ⟨_, _, rfl, by decide⟩
  | positive _ hs => exact ⟨_, _, rfl, hs _ List.mem_cons_self⟩

theorem skipNumber_leaves (h : Magnitude s r) (hr : Ends r) : Leaves (skipNumber s) r := by
  obtain ⟨t, u, hw, hp, he⟩ := h
  have next := hp.noDigit he hr
  have fraction := skipFraction_leaves hp he hr
  cases hw with
  | zero =>
    have only : (t.head?.map isDigit).getD false = false := by
      cases t with
      | nil => rfl
      | cons b t => exact next b rfl
    have behind : Leaves (skipFraction (if (0x30 : UInt8) = 0x30 then Tail.whole t else skipDigits t).1) r := fraction
    obtain ⟨_, hx⟩ := behind
    rw [skipNumber, if_neg (by simp [only]), if_pos (by decide)]
    dsimp only
    rw [hx]
    exact ⟨_, rfl⟩
  | @positive d ds _ hd hs =>
    have first := hs d List.mem_cons_self
    obtain ⟨hl, hy⟩ := skipDigits_append (fun x hx => hs x (List.mem_cons_of_mem d hx)) next
    have behind : Leaves (skipFraction (if d = 0x30 then Tail.whole (ds ++ t) else skipDigits (ds ++ t)).1) r := by
      rw [if_neg hd, hy]
      exact fraction
    obtain ⟨_, hx⟩ := behind
    rw [List.cons_append, skipNumber, if_neg (by simp [hd]), if_pos first]
    dsimp only
    rw [hx]
    exact ⟨_, rfl⟩

/-! ## Values -/

/-- An octet that a value or a key may begin with. -/
def Begins (b : UInt8) : Prop := isSpace b = false ∧ b ≠ 0x5D ∧ b ≠ 0x7D
deriving Decidable

theorem begins_of_isDigit {b : UInt8} (h : isDigit b = true) : Begins b ∧ b ∉ [0x22, 0x2D, 0x5B, 0x7B] := by
  have other {c : UInt8} (hc : isDigit c = false) : b ≠ c := by
    rintro rfl
    rw [h] at hc
    cases hc
  refine ⟨⟨Bool.eq_false_iff.mpr fun space => ?_, other (by decide), other (by decide)⟩, ?_⟩
  · rcases eq_of_isSpace space with rfl | rfl | rfl | rfl <;> revert h <;> decide
  · simp [other (c := 0x22) (by decide), other (c := 0x2D) (by decide), other (c := 0x5B) (by decide),
      other (c := 0x7B) (by decide)]

theorem Wellformed.begins {p : Part} (h : Wellformed p s r) : ∃ b t, s = b :: t ∧ Begins b := by
  induction h with
  | name hw =>
    simp only [List.mem_cons, List.not_mem_nil, or_false] at hw
    rcases hw with rfl | rfl | rfl <;> exact ⟨_, _, rfl, by decide⟩
  | number h =>
    obtain ⟨d, t, hs, hd⟩ := h.begins
    exact ⟨d, t, hs, (begins_of_isDigit hd).1⟩
  | lastElement _ _ ih => exact ih
  | element _ _ _ _ ih _ => exact ih
  | _ => exact ⟨_, _, rfl, by decide⟩

theorem readName_leaves (name : Octets) : Leaves (readName name (name ++ r)) r := by
  induction name with
  | nil => exact ⟨_, rfl⟩
  | cons x name ih =>
    obtain ⟨_, hx⟩ := ih
    rw [List.cons_append, readName, if_pos rfl, hx]
    exact ⟨_, rfl⟩

theorem skipScalar_name {w : String} (hw : w ∈ ["null", "true", "false"]) :
    Leaves (skipScalar (octets w ++ r)) r := by
  have letters (b : UInt8) (name : String) (hb : b ∉ [0x22, 0x2D] ∧ isDigit b = false)
      (hn : (if b = 0x6E then some "ull" else if b = 0x74 then some "rue" else if b = 0x66 then some "alse"
        else none) = some name) : Leaves (skipScalar (b :: (octets name ++ r))) r := by
    obtain ⟨hb, hd⟩ := hb
    simp only [List.mem_cons, List.not_mem_nil, or_false, not_or] at hb
    obtain ⟨_, hx⟩ := readName_leaves (r := r) (octets name)
    rw [skipScalar, if_neg hb.1, if_neg hb.2, if_neg (by simp [hd])]
    dsimp only
    rw [hn]
    dsimp only
    rw [hx]
    exact ⟨_, rfl⟩
  simp only [List.mem_cons, List.not_mem_nil, or_false] at hw
  rcases hw with rfl | rfl | rfl
  · exact letters 0x6E "ull" (by decide) rfl
  · exact letters 0x74 "rue" (by decide) rfl
  · exact letters 0x66 "alse" (by decide) rfl

theorem skipScalar_number (h : Magnitude s r) (hr : Ends r) : Leaves (skipScalar s) r := by
  obtain ⟨d, t, rfl, hd⟩ := h.begins
  have other := (begins_of_isDigit hd).2
  simp only [List.mem_cons, List.not_mem_nil, or_false, not_or] at other
  rw [skipScalar, if_neg other.1, if_neg other.2.1, if_pos hd]
  exact skipNumber_leaves h hr

theorem skipScalar_negative (h : Magnitude s r) (hr : Ends r) : Leaves (skipScalar (0x2D :: s)) r := by
  obtain ⟨_, hx⟩ := skipNumber_leaves h hr
  rw [skipScalar, if_neg (by decide), if_pos rfl, hx]
  exact ⟨_, rfl⟩

theorem skipScalar_text (h : Inside s r) : Leaves (skipScalar (0x22 :: s)) r := by
  obtain ⟨_, hx⟩ := skipText_leaves h
  rw [skipScalar, if_pos rfl, hx]
  exact ⟨_, rfl⟩

theorem skipColon_leaves (h : Blank s (0x3A :: r)) : Leaves (skipColon s) r := by
  obtain ⟨_, hx⟩ := skipSpace_cons h (by decide)
  unfold skipColon
  rw [hx]
  dsimp only
  rw [if_pos rfl]
  exact ⟨_, rfl⟩

section

variable {frames : List Frame}

theorem skipDue_scalar {b : UInt8} (hb : isSpace b = false ∧ b ≠ 0x5B ∧ b ≠ 0x7B) (hs : Blank s (b :: t))
    (h : Leaves (skipScalar (b :: t)) r) : skipDue .value frames s = skipDue .separator frames r := by
  obtain ⟨_, hx⟩ := skipSpace_cons hs hb.1
  obtain ⟨_, hy⟩ := h
  rw [skipDue, hx]
  dsimp only
  rw [if_neg hb.2.1, if_neg hb.2.2, hy]

theorem skipDue_key (hs : Blank s (0x22 :: t)) (hk : Inside t u) (hc : Blank u (0x3A :: r)) :
    skipDue .key frames s = skipDue .value frames r := by
  obtain ⟨_, hx⟩ := skipSpace_cons hs (by decide)
  obtain ⟨_, hy⟩ := skipText_leaves hk
  obtain ⟨_, hz⟩ := skipColon_leaves hc
  rw [skipDue, skipKey, hx]
  dsimp only
  rw [if_neg (by simp), hy]
  dsimp only
  rw [hz]

/-- The bracket that opens a list or an object. -/
def Frame.opening : Frame → UInt8
  | list => 0x5B
  | object => 0x7B

/-- The bracket that closes it. -/
def Frame.closing : Frame → UInt8
  | list => 0x5D
  | object => 0x7D

/-- What is due after its opening bracket and after each of its commas. -/
def Frame.due : Frame → Due
  | list => .value
  | object => .key

variable (f : Frame)

theorem skipDue_empty (hs : Blank s (f.opening :: t)) (ht : Blank t (f.closing :: r)) :
    skipDue .value frames s = skipDue .separator frames r := by
  obtain ⟨_, hx⟩ := skipSpace_cons hs (by cases f <;> decide)
  obtain ⟨_, hy⟩ := skipSpace_cons ht (by cases f <;> decide)
  rw [skipDue, hx]
  dsimp only
  rw [hy]
  cases f <;> rfl

theorem skipDue_open {b : UInt8} (hs : Blank s (f.opening :: t)) (ht : Blank t (b :: r)) (hb : Begins b) :
    skipDue .value frames s = skipDue f.due (f :: frames) (b :: r) := by
  obtain ⟨_, hx⟩ := skipSpace_cons hs (by cases f <;> decide)
  obtain ⟨_, hy⟩ := skipSpace_cons ht hb.1
  rw [skipDue, hx]
  dsimp only
  rw [hy]
  cases f with
  | list => exact if_neg hb.2.1
  | object => exact if_neg hb.2.2

theorem skipDue_comma (hs : Blank s (0x2C :: r)) :
    skipDue .separator (f :: frames) s = skipDue f.due (f :: frames) r := by
  obtain ⟨_, hx⟩ := skipSpace_cons hs (by decide)
  cases f <;> rw [skipDue, hx] <;> rfl

theorem skipDue_close (hs : Blank s (f.closing :: r)) :
    skipDue .separator (f :: frames) s = skipDue .separator frames r := by
  obtain ⟨_, hx⟩ := skipSpace_cons hs (by cases f <;> decide)
  cases f <;> rw [skipDue, hx] <;> rfl

end

/-- What is due where something is written. -/
def Part.due : Part → Due
  | value | elements => .value
  | members => .key

/-- What has been opened for it. -/
def Part.frames : Part → List Frame
  | value => []
  | elements => [.list]
  | members => [.object]

/-- What is written is passed over, and all that it opened is closed. -/
theorem skipDue_of_wellformed {p : Part} (h : Wellformed p t r) (hr : p = .value → Ends r) (hs : Blank s t)
    (frames : List Frame) : skipDue p.due (p.frames ++ frames) s = skipDue .separator frames r := by
  induction h generalizing s frames with
  | @name w r hw =>
    have scalar := skipScalar_name (r := r) hw
    simp only [List.mem_cons, List.not_mem_nil, or_false] at hw
    rcases hw with rfl | rfl | rfl <;> exact skipDue_scalar (by decide) hs scalar
  | number h =>
    have scalar := skipScalar_number h (hr rfl)
    obtain ⟨d, t, rfl, hd⟩ := h.begins
    obtain ⟨hd, other⟩ := begins_of_isDigit hd
    simp only [List.mem_cons, List.not_mem_nil, or_false, not_or] at other
    exact skipDue_scalar ⟨hd.1, other.2.2⟩ hs scalar
  | negative h => exact skipDue_scalar (by decide) hs (skipScalar_negative h (hr rfl))
  | text h => exact skipDue_scalar (by decide) hs (skipScalar_text h)
  | emptyList h => exact skipDue_empty .list hs h
  | emptyObject h => exact skipDue_empty .object hs h
  | list hb h ih =>
    obtain ⟨b, u, rfl, begins⟩ := h.begins
    rw [Part.due, Part.frames, List.nil_append, skipDue_open .list hs hb begins]
    exact ih nofun (.refl _) frames
  | object hb h ih =>
    obtain ⟨b, u, rfl, begins⟩ := h.begins
    rw [Part.due, Part.frames, List.nil_append, skipDue_open .object hs hb begins]
    exact ih nofun (.refl _) frames
  | lastElement _ he ih =>
    exact (ih (fun _ => he.ends_cons (by decide)) hs (.list :: frames)).trans (skipDue_close .list he)
  | element _ he hb _ ihv ih =>
    refine (ihv (fun _ => he.ends_cons (by decide)) hs (.list :: frames)).trans ?_
    exact (skipDue_comma .list he).trans (ih nofun hb frames)
  | lastMember hk hc hb _ he ih =>
    refine (skipDue_key hs hk hc).trans ?_
    exact (ih (fun _ => he.ends_cons (by decide)) hb (.object :: frames)).trans (skipDue_close .object he)
  | member hk hc hb _ he hb' _ ihv ih =>
    refine (skipDue_key hs hk hc).trans ?_
    refine (ihv (fun _ => he.ends_cons (by decide)) hb (.object :: frames)).trans ?_
    exact (skipDue_comma .object he).trans (ih nofun hb' frames)

/-- A value of any kind and depth is passed over. -/
theorem skipValue_leaves (h : Wellformed .value t r) (hr : Ends r) (hs : Blank s t) : Leaves (skipValue s) r := by
  have due : skipDue .value [] s = .ok r := by
    refine (skipDue_of_wellformed h (fun _ => hr) hs []).trans ?_
    rw [skipDue]
  unfold skipValue
  split
  · next h' => rw [due] at h'; cases h'
  · next h' => rw [due] at h'; cases h'; exact ⟨_, rfl⟩

end HostedGit.Json
