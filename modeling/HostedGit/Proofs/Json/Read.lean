/-
Readers of JSON against what is written: a string is read as its text, a list as its elements, and a record is
filled from the members that name its fields, whatever other members stand between them.
-/
import HostedGit.Json.Record
import HostedGit.Proofs.Json.Skip

namespace HostedGit.Json

variable {α : Type} {a : α} {s t u r : Octets}

/-- A reader reads what is written in one way, with white space before it. -/
structure Reads (read : Reader α) (W : α → Octets → Octets → Prop) : Prop where
  begins : ∀ {a s r}, W a s r → ∃ b t, s = b :: t ∧ Begins b
  gives : ∀ {a s t r}, W a t r → Blank s t → Ends r → Gives (read s) a r

theorem Reads.map {β : Type} {f : α → β} {read : Reader α} {W : α → Octets → Octets → Prop}
    {W' : β → Octets → Octets → Prop} (h : Reads read W) (hW : ∀ {b s r}, W' b s r → ∃ a, W a s r ∧ f a = b) :
    Reads (Reader.map f read) W' where
  begins hw := by
    obtain ⟨a, ha, -⟩ := hW hw
    exact h.begins ha
  gives hw hs hr := by
    obtain ⟨a, ha, rfl⟩ := hW hw
    obtain ⟨_, hx⟩ := h.gives ha hs hr
    unfold Reader.map
    rw [hx]
    exact ⟨_, rfl⟩

/-! ## Strings -/

theorem readString_reads : Reads readString TextOf where
  begins := by
    rintro _ _ _ ⟨-⟩
    exact ⟨_, _, rfl, by decide⟩
  gives := by
    rintro text s t r ⟨h⟩ hs -
    obtain ⟨_, hx⟩ := skipSpace_cons hs (by decide)
    obtain ⟨_, hy⟩ := readText_gives h
    unfold readString
    rw [hx]
    dsimp only
    rw [if_pos rfl, hy]
    dsimp only
    rw [String.ofList_toList]
    exact ⟨_, rfl⟩

/-! ## Lists -/

/-- An element or a key comes next: the first one after white space, another one after a comma as well. -/
def Next (first : Bool) (s t : Octets) : Prop :=
  if first then Blank s t else ∃ u, Blank s (0x2C :: u) ∧ Blank u t

theorem nextElement_of_next {first : Bool} {b : UInt8} (h : Next first s (b :: r)) (hb : Begins b) :
    ∃ h, nextElement first s = .ok (true, ⟨b :: r, h⟩) := by
  cases first with
  | true =>
    obtain ⟨_, hx⟩ := skipSpace_cons h hb.1
    unfold nextElement
    rw [hx]
    dsimp only
    rw [if_neg hb.2.1, if_pos rfl]
    exact ⟨_, rfl⟩
  | false =>
    obtain ⟨u, hs, hu⟩ := h
    obtain ⟨_, hx⟩ := skipSpace_cons hs (by decide)
    obtain ⟨_, hy⟩ := skipSpace_cons hu hb.1
    unfold nextElement
    rw [hx]
    dsimp only
    rw [if_neg (by decide), if_neg (by decide), if_pos rfl, hy]
    dsimp only
    rw [if_neg hb.2.1]
    exact ⟨_, rfl⟩

theorem closeList_leaves (h : Blank s (0x5D :: r)) : Leaves (closeList s) r := by
  obtain ⟨_, hx⟩ := skipSpace_cons h (by decide)
  unfold closeList
  rw [hx]
  dsimp only
  rw [if_pos rfl]
  exact ⟨_, rfl⟩

section

variable {read : Reader α} {W : α → Octets → Octets → Prop}

theorem readElements_end (first : Bool) (h : Blank s (0x5D :: r)) : Gives (readElements read first s) [] r := by
  obtain ⟨_, hx⟩ := skipSpace_cons h (by decide)
  obtain ⟨_, hy⟩ := closeList_leaves (.refl (0x5D :: r))
  rw [readElements, nextElement, hx]
  dsimp only
  rw [if_pos rfl]
  dsimp only
  rw [hy]
  exact ⟨_, rfl⟩

theorem readElements_cons (hv : Reads read W) {first : Bool} {as : List α} (hs : Next first s t) (ht : W a t u)
    (hu : Ends u) (h : Gives (readElements read false u) as r) : Gives (readElements read first s) (a :: as) r := by
  obtain ⟨b, t, rfl, hb⟩ := hv.begins ht
  obtain ⟨_, hx⟩ := nextElement_of_next hs hb
  obtain ⟨_, hy⟩ := hv.gives ht (.refl _) hu
  obtain ⟨_, hz⟩ := h
  rw [readElements, hx]
  dsimp only
  rw [hy]
  dsimp only
  rw [hz]
  exact ⟨_, rfl⟩

theorem readElements_gives (hv : Reads read W) {first : Bool} {as : List α} (h : Elements W as t r)
    (hs : Next first s t) : Gives (readElements read first s) as r := by
  induction h generalizing first s with
  | last ha he => exact readElements_cons hv hs ha (he.ends_cons (by decide)) (readElements_end false he)
  | cons ha he hb _ ih => exact readElements_cons hv hs ha (he.ends_cons (by decide)) (ih ⟨_, he, hb⟩)

/-- A list is read as its elements. -/
theorem readList_reads (hv : Reads read W) : Reads (readList read) (ListOf W) where
  begins := by
    rintro as s r (_ | _)
    all_goals exact ⟨_, _, rfl, by decide⟩
  gives := by
    intro as s t r h hs _
    obtain ⟨u, rfl, elements⟩ : ∃ u, t = 0x5B :: u ∧ Gives (readElements read true u) as r := by
      cases h with
      | nil h => exact ⟨_, rfl, readElements_end true h⟩
      | elements hb h => exact ⟨_, rfl, readElements_gives hv h hb⟩
    obtain ⟨_, hx⟩ := skipSpace_cons hs (by decide)
    obtain ⟨_, hy⟩ := elements
    unfold readList
    rw [hx]
    dsimp only
    rw [if_pos rfl, hy]
    exact ⟨_, rfl⟩

end

/-! ## Records -/

namespace Record

variable {R : Record α} {W : α → Octets → Octets → Prop} {given given' : List (Option α)} {all : List α}
  {ms : List (List Char × Option α)}

/-- What is given once members were read onto what was given before. A member is meant if its key names a field,
and no field is named twice. -/
inductive Fills (R : Record α) : List (Option α) → List (List Char × Option α) → List (Option α) → Prop
  | nil {given : List (Option α)} : Fills R given [] given
  | other {given given' : List (Option α)} {key : List Char} {ms : List (List Char × Option α)}
    (hk : R.find? (String.ofList key) = none) (h : Fills R given ms given') : Fills R given ((key, none) :: ms) given'
  | field {given given' : List (Option α)} {key : List Char} {a : α} {i : Nat} {ms : List (List Char × Option α)}
    (hk : R.find? (String.ofList key) = some i) (hi : given[i]?.join = none)
    (h : Fills R (given.set i (some a)) ms given') : Fills R given ((key, some a) :: ms) given'

theorem nextKey_of_next {first : Bool} (h : Next first s (0x22 :: r)) :
    ∃ h, nextKey first s = .ok (true, ⟨r, h⟩) := by
  cases first with
  | true =>
    obtain ⟨_, hx⟩ := skipSpace_cons h (by decide)
    unfold nextKey
    rw [hx]
    dsimp only
    rw [if_neg (by decide), if_pos rfl, if_pos rfl]
    exact ⟨_, rfl⟩
  | false =>
    obtain ⟨u, hs, hu⟩ := h
    obtain ⟨_, hx⟩ := skipSpace_cons hs (by decide)
    obtain ⟨_, hy⟩ := skipSpace_cons hu (by decide)
    unfold nextKey
    rw [hx]
    dsimp only
    rw [if_neg (by decide), if_neg (by decide), if_pos rfl, hy]
    exact ⟨_, rfl⟩

theorem readMembers_end (first : Bool) (h : Blank s (0x7D :: r)) (hc : complete R.fields given = .ok all) :
    Gives (R.readMembers given first s) all r := by
  obtain ⟨_, hx⟩ := skipSpace_cons h (by decide)
  rw [readMembers, nextKey, hx]
  dsimp only
  rw [if_pos rfl]
  dsimp only
  rw [hc]
  exact ⟨_, rfl⟩

theorem readMembers_other {first : Bool} {key : List Char} {v w x : Octets}
    (hn : R.find? (String.ofList key) = none) (hs : Next first s (0x22 :: t)) (hk : Spelled key t u)
    (hc : Blank u (0x3A :: v)) (hb : Blank v w) (hv : Wellformed .value w x) (hx : Ends x)
    (h : Gives (R.readMembers given false x) all r) : Gives (R.readMembers given first s) all r := by
  obtain ⟨_, h₁⟩ := nextKey_of_next hs
  obtain ⟨_, h₂⟩ := readText_gives hk
  obtain ⟨_, h₃⟩ := skipColon_leaves hc
  obtain ⟨_, h₄⟩ := skipValue_leaves hv hx hb
  obtain ⟨_, h₅⟩ := h
  rw [readMembers, h₁]
  dsimp only
  rw [h₂]
  dsimp only
  rw [hn]
  dsimp only
  rw [h₃]
  dsimp only
  rw [h₄]
  dsimp only
  rw [h₅]
  exact ⟨_, rfl⟩

theorem readMembers_field {first : Bool} {key : List Char} {v w x : Octets} {i : Nat} (hr : Reads R.value W)
    (hn : R.find? (String.ofList key) = some i) (hi : given[i]?.join = none) (hs : Next first s (0x22 :: t))
    (hk : Spelled key t u) (hc : Blank u (0x3A :: v)) (hb : Blank v w) (hv : W a w x) (hx : Ends x)
    (h : Gives (R.readMembers (given.set i (some a)) false x) all r) : Gives (R.readMembers given first s) all r := by
  obtain ⟨_, h₁⟩ := nextKey_of_next hs
  obtain ⟨_, h₂⟩ := readText_gives hk
  obtain ⟨_, h₃⟩ := skipColon_leaves hc
  obtain ⟨_, h₄⟩ := hr.gives hv hb hx
  obtain ⟨_, h₅⟩ := h
  rw [readMembers, h₁]
  dsimp only
  rw [h₂]
  dsimp only
  rw [hn]
  dsimp only
  rw [if_neg (by simp [hi]), h₃]
  dsimp only
  rw [h₄]
  dsimp only
  rw [h₅]
  exact ⟨_, rfl⟩

theorem readMembers_gives (hr : Reads R.value W) {first : Bool} (hm : Members W ms t r) (hf : R.Fills given ms given')
    (hc : complete R.fields given' = .ok all) (hs : Next first s t) : Gives (R.readMembers given first s) all r := by
  induction hm generalizing given first s with
  | last hk hcolon hb hv he =>
    have hends := he.ends_cons (by decide)
    cases hf with
    | other hn hf =>
      cases hf
      cases hv with
      | other hv => exact readMembers_other hn hs hk hcolon hb hv hends (readMembers_end false he hc)
    | field hn hi hf =>
      cases hf
      cases hv with
      | meant hv => exact readMembers_field hr hn hi hs hk hcolon hb hv hends (readMembers_end false he hc)
  | cons hk hcolon hb hv he hb' _ ih =>
    have hends := he.ends_cons (by decide)
    cases hf with
    | other hn hf =>
      cases hv with
      | other hv => exact readMembers_other hn hs hk hcolon hb hv hends (ih hf ⟨_, he, hb'⟩)
    | field hn hi hf =>
      cases hv with
      | meant hv => exact readMembers_field hr hn hi hs hk hcolon hb hv hends (ih hf ⟨_, he, hb'⟩)

/-- A record is read from the members that name its fields. -/
theorem read_reads (hr : Reads R.value W) : Reads R.read fun all s r => ∃ ms given,
    ObjectOf W ms s r ∧ R.Fills (R.fields.map fun _ => none) ms given ∧ complete R.fields given = .ok all where
  begins := by
    rintro all s r ⟨ms, given, _ | _, -⟩
    all_goals exact ⟨_, _, rfl, by decide⟩
  gives := by
    rintro all s t r ⟨ms, given, h, hf, hc⟩ hs -
    obtain ⟨u, rfl, members⟩ : ∃ u, t = 0x7B :: u ∧
        Gives (R.readMembers (R.fields.map fun _ => none) true u) all r := by
      cases h with
      | nil h =>
        cases hf
        exact ⟨_, rfl, readMembers_end true h hc⟩
      | members hb h => exact ⟨_, rfl, readMembers_gives hr h hf hc hb⟩
    obtain ⟨_, hx⟩ := skipSpace_cons hs (by decide)
    obtain ⟨_, hy⟩ := members
    unfold read
    rw [hx]
    dsimp only
    rw [if_neg (by decide), if_pos rfl, hy]
    exact ⟨_, rfl⟩

end Record

/-! ## Whole texts -/

/-- A text that is one value and nothing else is read as that value. -/
theorem decode_of_document {read : Reader α} {W : α → Octets → Octets → Prop} (hr : Reads read W) {body : Octets}
    (h : Document W a body) : decode read body = .ok a := by
  obtain ⟨s, r, hs, hw, hend⟩ := h
  obtain ⟨_, hx⟩ := hr.gives hw hs (hend.ends ends_nil)
  obtain ⟨_, hy⟩ := skipSpace_of_blank hend nofun
  unfold decode
  rw [hx]
  dsimp only
  rw [hy]

end HostedGit.Json
