/-
Paths that segments are added to. A segment is kept if it is plain: no dot segment, and without tabs and
line ends. Adding any other one loses it, or puts another one in its place, so that a path can tell which
segments were added to it exactly if all of them are plain.
-/
import HostedGit.Proofs.Text.Percent
import HostedGit.Url.Edit

namespace HostedGit.Url

/-! ## Dot segments -/

theorem toNat_toLower (c : Char) :
    c.toLower.toNat = if 65 ≤ c.toNat ∧ c.toNat ≤ 90 then c.toNat + 32 else c.toNat := by
  unfold Char.toLower
  split
  · rename_i h
    have h65 : 65 ≤ c.toNat := h.1
    have h90 : c.val.toNat ≤ 90 := h.2
    rw [if_pos ⟨h65, h90⟩]
    show (c.val + 32).toNat = c.val.toNat + 32
    rw [UInt32.toNat_add]
    show (c.val.toNat + 32) % 4294967296 = _
    omega
  · rename_i h
    rw [if_neg fun h' => h ⟨h'.1, h'.2⟩]

/-- Only a small letter is the lower case of another character. -/
theorem eq_of_toLower {c d : Char} (h : c.toLower = d) (hd : d.toNat < 97 ∨ 122 < d.toNat) : c = d := by
  have hn := toNat_toLower c
  rw [h] at hn
  split at hn
  · omega
  · exact Char.toNat_inj.mp hn.symm

theorem eq_of_toLower_e {c : Char} (h : c.toLower = 'e') : c = 'e' ∨ c = 'E' := by
  have hn := toNat_toLower c
  rw [h] at hn
  split at hn
  · right
    apply Char.toNat_inj.mp
    change 101 = c.toNat + 32 at hn
    show c.toNat = 69
    omega
  · exact .inl (Char.toNat_inj.mp hn.symm)

/-- A dot, spelled as it is or escaped. -/
def IsDot (cs : List Char) : Prop := cs = ['.'] ∨ cs = ['%', '2', 'e'] ∨ cs = ['%', '2', 'E']

theorem isDot_of_plain {c : Char} (h : c.toLower = '.') : IsDot [c] :=
  .inl (by rw [eq_of_toLower h (by decide)])

theorem isDot_of_escape {a b c : Char} (ha : a.toLower = '%') (hb : b.toLower = '2') (hc : c.toLower = 'e') :
    IsDot [a, b, c] := by
  rw [eq_of_toLower ha (by decide), eq_of_toLower hb (by decide)]
  rcases eq_of_toLower_e hc with rfl | rfl
  · exact .inr (.inl rfl)
  · exact .inr (.inr rfl)

theorem decodeBytes_dot {cs : List Char} (h : IsDot cs) (rest : List Char) :
    Percent.decodeBytes (cs ++ rest) = Utf8.encodeChar '.' ++ Percent.decodeBytes rest := by
  rcases h with rfl | rfl | rfl <;> rfl

theorem decode_of_isSingleDot {s : List Char} (h : isSingleDot s = true) : Percent.decode s = ['.'] := by
  have spelled : s.map Char.toLower = ['.'] ∨ s.map Char.toLower = ['%', '2', 'e'] := by
    simpa [isSingleDot] using h
  have dot : IsDot s := by
    rcases spelled with h | h <;> simp only [List.map_eq_cons_iff, List.map_eq_nil_iff] at h
    · obtain ⟨a, _, rfl, ha, rfl⟩ := h
      exact isDot_of_plain ha
    · obtain ⟨a, _, rfl, ha, b, _, rfl, hb, c, _, rfl, hc, rfl⟩ := h
      exact isDot_of_escape ha hb hc
  have := decodeBytes_dot dot []
  rw [List.append_nil] at this
  unfold Percent.decode
  rw [this]
  exact Utf8.decodeLossy_encode ['.']

theorem decode_of_isDoubleDot {s : List Char} (h : isDoubleDot s = true) : Percent.decode s = ['.', '.'] := by
  have spelled : s.map Char.toLower = ['.', '.'] ∨ s.map Char.toLower = ['.', '%', '2', 'e'] ∨
      s.map Char.toLower = ['%', '2', 'e', '.'] ∨ s.map Char.toLower = ['%', '2', 'e', '%', '2', 'e'] := by
    simpa [isDoubleDot] using h
  have dots : ∃ x y, s = x ++ y ∧ IsDot x ∧ IsDot y := by
    rcases spelled with h | h | h | h <;> simp only [List.map_eq_cons_iff, List.map_eq_nil_iff] at h
    · obtain ⟨a, _, rfl, ha, b, _, rfl, hb, rfl⟩ := h
      exact ⟨[a], [b], rfl, isDot_of_plain ha, isDot_of_plain hb⟩
    · obtain ⟨a, _, rfl, ha, b, _, rfl, hb, c, _, rfl, hc, d, _, rfl, hd, rfl⟩ := h
      exact ⟨[a], [b, c, d], rfl, isDot_of_plain ha, isDot_of_escape hb hc hd⟩
    · obtain ⟨a, _, rfl, ha, b, _, rfl, hb, c, _, rfl, hc, d, _, rfl, hd, rfl⟩ := h
      exact ⟨[a, b, c], [d], rfl, isDot_of_escape ha hb hc, isDot_of_plain hd⟩
    · obtain ⟨a, _, rfl, ha, b, _, rfl, hb, c, _, rfl, hc, d, _, rfl, hd, e, _, rfl, he, f, _, rfl, hf, rfl⟩ := h
      exact ⟨[a, b, c], [d, e, f], rfl, isDot_of_escape ha hb hc, isDot_of_escape hd he hf⟩
  obtain ⟨x, y, rfl, hx, hy⟩ := dots
  have := decodeBytes_dot hy []
  rw [List.append_nil] at this
  unfold Percent.decode
  rw [decodeBytes_dot hx, this]
  exact Utf8.decodeLossy_encode ['.', '.']

theorem segment_percent (special : Bool) : Escape.segment special '%' = false := by
  cases special <;> decide

theorem isSingleDot_encode (special : Bool) (t : List Char) :
    isSingleDot (Percent.encode (Escape.segment special) t) = true ↔ t = ['.'] := by
  constructor
  · intro h
    rw [← Percent.decode_encode (segment_percent special) t, decode_of_isSingleDot h]
  · rintro rfl
    cases special <;> decide

theorem isDoubleDot_encode (special : Bool) (t : List Char) :
    isDoubleDot (Percent.encode (Escape.segment special) t) = true ↔ t = ['.', '.'] := by
  constructor
  · intro h
    rw [← Percent.decode_encode (segment_percent special) t, decode_of_isDoubleDot h]
  · rintro rfl
    cases special <;> decide

/-! ## Plain segments -/

/-- A segment that is kept as it is: no dot segment, and nothing in it that counts for nothing. -/
def Plain (s : List Char) : Prop := s ≠ ['.'] ∧ s ≠ ['.', '.'] ∧ ∀ c ∈ s, isIgnored c = false

instance (s : List Char) : Decidable (Plain s) :=
  @instDecidableAnd _ _ _ (@instDecidableAnd _ _ _ (List.decidableBAll _ s))

/-- What is read where a segment was added, if there is anything. -/
def trace (s : List Char) : List Char :=
  let t := s.filter (!isIgnored ·)
  if t = ['.'] ∨ t = ['.', '.'] then [] else t

/-- Just the plain segments are read as they were. -/
theorem trace_eq_self_iff {s : List Char} : trace s = s ↔ Plain s := by
  unfold trace Plain
  dsimp only
  constructor
  · intro h
    split at h
    · -- nothing is left of a dot segment, and that is none
      rename_i hd
      subst h
      rcases hd with hd | hd <;> cases hd
    · rename_i hd
      rw [h, not_or] at hd
      refine ⟨hd.1, hd.2, fun c hc => ?_⟩
      have := List.filter_eq_self.mp h c hc
      simpa using this
  · rintro ⟨h₁, h₂, hc⟩
    rw [List.filter_eq_self.mpr fun c h => by rw [hc c h]; rfl, if_neg]
    rintro (h | h)
    · exact h₁ h
    · exact h₂ h

/-! ## Adding segments -/

/-- The segments that a path holds; the one of `/` holds none. -/
def held (segments : List (List Char)) : List (List Char) := if segments = [[]] then [] else segments

theorem held_of_ne {segments : List (List Char)} (h : segments ≠ [[]]) : held segments = segments := if_neg h

theorem held_append {done : List (List Char)} {x : List Char} (h : done ≠ [] ∨ x ≠ []) :
    held (done ++ [x]) = done ++ [x] := by
  refine held_of_ne fun he => ?_
  obtain ⟨hd, hx⟩ := List.append_eq_singleton_iff.mp he |>.resolve_right (by simp)
  cases hx
  rcases h with h | h
  · exact h hd
  · exact h rfl

theorem length_held_le (segments : List (List Char)) : (held segments).length ≤ segments.length := by
  unfold held
  split
  · exact Nat.zero_le _
  · exact Nat.le_refl _

/-- What a path holds that has got longer by one segment, read as `s`. -/
def GrewBy (before after : List (List Char)) (s : List Char) : Prop :=
  ∃ x, Percent.decode x = s ∧ after = before ++ [x]

/-- An empty segment is added, or the path does not get longer. -/
theorem held_append_nil (done : List (List Char)) :
    (held (done ++ [[]])).length ≤ done.length ∨ GrewBy done (held (done ++ [[]])) [] := by
  cases done with
  | nil => exact .inl (Nat.le_refl _)
  | cons d rest => exact .inr ⟨[], Utf8.decodeLossy_encode [], held_append (.inl (List.cons_ne_nil _ _))⟩

theorem length_above (done : List (List Char)) : above done = done ∨ (above done).length = done.length - 1 := by
  unfold above
  split
  · exact .inl rfl
  · exact .inr List.length_dropLast

/-- A step along a segment that has been escaped. -/
theorem walk_encode (special : Bool) (done : List (List Char)) (t : List Char) :
    walk done [Percent.encode (Escape.segment special) t] =
      if t = ['.', '.'] then above done ++ [[]] else if t = ['.'] then done ++ [[]]
      else done ++ [Percent.encode (Escape.segment special) t] := by
  unfold walk
  by_cases h₂ : t = ['.', '.']
  · rw [if_pos ((isDoubleDot_encode special t).mpr h₂), if_pos h₂]
    rfl
  rw [if_neg fun h => h₂ ((isDoubleDot_encode special t).mp h), if_neg h₂]
  by_cases h₁ : t = ['.']
  · rw [if_pos ((isSingleDot_encode special t).mpr h₁), if_pos h₁]
    rfl
  · rw [if_neg fun h => h₁ ((isSingleDot_encode special t).mp h), if_neg h₁]
    rfl

theorem encode_ne_nil {safe : Char → Bool} (h : safe '%' = false) {t : List Char} (ht : t ≠ []) :
    Percent.encode safe t ≠ [] := by
  intro he
  refine ht (Percent.encode_injective h ?_)
  rw [he]
  rfl

/-- An added segment lengthens the path by what is read in its place, or does not lengthen it. -/
theorem held_pushSegment (special : Bool) (list : List (List Char)) (s : List Char) :
    (held (pushSegment special list s)).length ≤ (held list).length ∨
      GrewBy (held list) (held (pushSegment special list s)) (trace s) := by
  unfold pushSegment
  split
  · exact .inl (Nat.le_refl _)
  show (held (walk (held list) _)).length ≤ _ ∨ GrewBy _ (held (walk (held list) _)) _
  unfold trace
  generalize s.filter (!isIgnored ·) = t
  rw [walk_encode]
  by_cases h₂ : t = ['.', '.']
  · -- a directory is left, and an empty segment stands for it
    rw [if_pos h₂]
    dsimp only
    rw [if_pos (.inr h₂)]
    rcases length_above (held list) with ha | ha
    · rw [ha]
      exact held_append_nil _
    · left
      have hle := length_held_le (above (held list) ++ [[]])
      rw [List.length_append, List.length_singleton, ha] at hle
      cases hl : held list with
      | nil => exact Nat.le_refl _
      | cons d rest =>
        rw [hl, List.length_cons] at hle
        rw [List.length_cons]
        omega
  rw [if_neg h₂]
  by_cases h₁ : t = ['.']
  · rw [if_pos h₁]
    dsimp only
    rw [if_pos (.inl h₁)]
    exact held_append_nil _
  rw [if_neg h₁]
  dsimp only
  rw [if_neg (not_or.mpr ⟨h₁, h₂⟩)]
  by_cases he : held list = [] ∧ t = []
  · rw [he.1, he.2]
    exact .inl (Nat.le_refl _)
  · -- only an empty segment that comes first would leave the path as it is
    refine .inr ⟨_, Percent.decode_encode (segment_percent special) t, held_append ?_⟩
    rcases Classical.not_and_iff_not_or_not.mp he with he | he
    · exact .inl he
    · exact .inr (encode_ne_nil (segment_percent special) he)

/-- A plain segment is added, escaped, unless it is an empty one that comes first. -/
theorem held_pushSegment_of_plain (special : Bool) {list : List (List Char)} {s : List Char} (hs : Plain s)
    (h : held list ≠ [] ∨ s ≠ []) :
    held (pushSegment special list s) = held list ++ [Percent.encode (Escape.segment special) s] := by
  obtain ⟨h₁, h₂, hc⟩ := hs
  unfold pushSegment
  rw [if_neg (show ¬(s = ".".toList ∨ s = "..".toList) from not_or.mpr ⟨h₁, h₂⟩),
    List.filter_eq_self.mpr fun c hm => by rw [hc c hm]; rfl]
  show held (walk (held list) _) = _
  rw [walk_encode, if_neg h₂, if_neg h₁]
  exact held_append (h.imp_right (encode_ne_nil (segment_percent special)))

/-! ## Adding many segments -/

/-- Added segments are all traced, or the path has fewer segments than were added to it. -/
theorem held_foldl_pushSegment (special : Bool) (list : List (List Char)) (added : List (List Char)) :
    (held (added.foldl (pushSegment special) list)).length < (held list).length + added.length ∨
      ∃ xs, xs.map Percent.decode = added.map trace ∧
        held (added.foldl (pushSegment special) list) = held list ++ xs := by
  induction added generalizing list with
  | nil => exact .inr ⟨[], rfl, (List.append_nil _).symm⟩
  | cons s added ih =>
    rw [List.foldl_cons, List.length_cons]
    rcases held_pushSegment special list s with hp | ⟨x, hx, hp⟩
    · -- a segment that is lost is never made up for, since each later one adds one at most
      left
      rcases ih (pushSegment special list s) with h | ⟨xs, hxs, h⟩
      · omega
      · have := congrArg List.length hxs
        rw [List.length_map, List.length_map] at this
        rw [h, List.length_append]
        omega
    · rcases ih (pushSegment special list s) with h | ⟨xs, hxs, h⟩
      · left
        rw [hp, List.length_append, List.length_singleton] at h
        omega
      · refine .inr ⟨x :: xs, by rw [List.map_cons, List.map_cons, hx, hxs], ?_⟩
        rw [h, hp, List.append_assoc]
        rfl

theorem held_foldl_of_plain (special : Bool) {list added : List (List Char)} (hs : ∀ s ∈ added, Plain s)
    (h : held list ≠ [] ∨ added.head? ≠ some []) :
    held (added.foldl (pushSegment special) list) =
      held list ++ added.map (Percent.encode (Escape.segment special)) := by
  induction added generalizing list with
  | nil => exact (List.append_nil _).symm
  | cons s added ih =>
    have hp := held_pushSegment_of_plain special (hs s List.mem_cons_self)
      (h.imp_right fun hn he => hn (by rw [he]; rfl))
    rw [List.foldl_cons, ih (fun s' hs' => hs s' (List.mem_cons_of_mem _ hs')) (.inl ?_), hp,
      List.append_assoc]
    · rfl
    · rw [hp]
      exact List.append_ne_nil_of_right_ne_nil _ (List.cons_ne_nil _ _)

/-! ## What a path tells -/

/-- The segments of a path without an empty last one. -/
def withoutEmptyLast (list : List (List Char)) : List (List Char) :=
  if list.getLast? = some [] then list.dropLast else list

/-- What is added to is the path without an empty last segment, save for a path of two empty ones. -/
theorem held_dropEmptyLast (list : List (List Char)) :
    if list = [[], []] then held (dropEmptyLast list) = [] ∧ withoutEmptyLast list = [[]]
    else held (dropEmptyLast list) = withoutEmptyLast list := by
  unfold dropEmptyLast withoutEmptyLast
  match list with
  | [] => rfl
  | [s] =>
    cases s with
    | nil => rfl
    | cons c s =>
      rw [if_neg (by simp), if_neg fun h => by simp at h, if_neg fun h => by simp at h]
      exact held_of_ne (by simp)
  | s :: t :: rest =>
    split
    · rename_i h
      rw [h]
      exact ⟨rfl, rfl⟩
    · rename_i h
      by_cases hl : (s :: t :: rest).getLast? = some []
      · rw [if_pos ⟨by simp, hl⟩, if_pos hl]
        refine held_of_ne fun he => h ?_
        obtain ⟨done, hd⟩ := List.getLast?_eq_some_iff.mp hl
        rw [hd, List.dropLast_concat] at he
        rw [hd, he]
        rfl
      · rw [if_neg fun h' => hl h'.2, if_neg hl]
        exact held_of_ne (by simp)

/-- A path tells the segments that were added to it exactly if they are plain, and if nothing but an empty
segment is taken away first. -/
theorem map_decode_foldl_iff (special : Bool) (list : List (List Char)) {added : List (List Char)}
    (hn : 2 ≤ added.length) (hh : added.head? ≠ some []) :
    (added.foldl (pushSegment special) (dropEmptyLast list)).map Percent.decode =
        (withoutEmptyLast list).map Percent.decode ++ added ↔
      list ≠ [[], []] ∧ ∀ s ∈ added, Plain s := by
  have hbase := held_dropEmptyLast list
  generalize dropEmptyLast list = base at hbase
  have length_kept : (held base).length ≤ (withoutEmptyLast list).length := by
    split at hbase
    · exact Nat.le_trans (Nat.le_of_eq (congrArg List.length hbase.1)) (Nat.zero_le _)
    · exact Nat.le_of_eq (congrArg List.length hbase)
  constructor
  · intro h
    have length_out := congrArg List.length h
    rw [List.length_map, List.length_append, List.length_map] at length_out
    have out : held (added.foldl (pushSegment special) base) = added.foldl (pushSegment special) base := by
      refine held_of_ne fun he => ?_
      rw [he, List.length_singleton] at length_out
      omega
    -- as many segments come out as went in, so none of them is lost
    rcases held_foldl_pushSegment special base added with hlt | ⟨xs, hxs, he⟩
    · rw [out] at hlt
      omega
    · rw [out] at he
      have length_xs := congrArg List.length hxs
      rw [List.length_map, List.length_map] at length_xs
      rw [he, List.length_append] at length_out
      split at hbase
      · rw [hbase.1, hbase.2, List.length_nil, List.length_singleton] at length_out
        omega
      · rename_i hne
        refine ⟨hne, fun s hs => trace_eq_self_iff.mp ?_⟩
        rw [he, hbase, List.map_append, hxs] at h
        have same : added.map trace = added.map id := (List.append_cancel_left h).trans (List.map_id _).symm
        exact List.map_inj_left.mp same s hs
  · rintro ⟨hne, hs⟩
    rw [if_neg hne] at hbase
    have grown : held (added.foldl (pushSegment special) base) =
        held base ++ added.map (Percent.encode (Escape.segment special)) :=
      held_foldl_of_plain special hs (.inr hh)
    have out : held (added.foldl (pushSegment special) base) = added.foldl (pushSegment special) base := by
      refine held_of_ne fun he => ?_
      have := congrArg List.length grown
      rw [he, List.length_append, List.length_map] at this
      change 0 = _ at this
      omega
    rw [← out, grown, hbase, List.map_append, List.map_map]
    congr 1
    calc added.map (Percent.decode ∘ Percent.encode (Escape.segment special))
        = added.map id := List.map_congr_left fun s _ => Percent.decode_encode (segment_percent special) s
      _ = added := List.map_id _

/-! ## The text of a path -/

theorem splitOn_append_flatMap {s : List Char} {list : List (List Char)} (hs : '/' ∉ s)
    (h : ∀ t ∈ list, '/' ∉ t) : (s ++ list.flatMap ('/' :: ·)).splitOn '/' = s :: list := by
  induction list generalizing s with
  | nil =>
    rw [List.flatMap_nil, List.append_nil]
    exact List.splitOn_eq_singleton hs
  | cons t list ih =>
    rw [List.flatMap_cons, List.cons_append, List.splitOn_append_cons_self_of_not_mem hs,
      ih (h t List.mem_cons_self) fun t' ht' => h t' (List.mem_cons_of_mem _ ht')]

/-- The text of a path is cut at `/` into its segments. -/
theorem splitOn_text {list : List (List Char)} (h : ∀ s ∈ list, '/' ∉ s) :
    (UrlPath.segments list).text.splitOn '/' = [] :: list :=
  splitOn_append_flatMap List.not_mem_nil h

theorem forall_mem_above {P : List Char → Prop} {done : List (List Char)} (h : ∀ s ∈ done, P s) :
    ∀ s ∈ above done, P s := by
  unfold above
  split
  · exact h
  · exact fun s hs => h s (List.dropLast_subset done hs)

/-- What holds of the segments of a directory, of those that are walked along and of the empty one holds of
those that are reached. -/
theorem forall_mem_walk {P : List Char → Prop} (hP : P []) {done rest : List (List Char)}
    (hd : ∀ s ∈ done, P s) (hr : ∀ s ∈ rest, P s) : ∀ s ∈ walk done rest, P s := by
  induction rest generalizing done with
  | nil => exact hd
  | cons r rest ih =>
    have last : ∀ {done : List (List Char)}, (∀ s ∈ done, P s) →
        ∀ s ∈ done ++ (if rest.isEmpty then [[]] else []), P s := by
      intro done hd s hs
      rcases List.mem_append.mp hs with hs | hs
      · exact hd s hs
      · split at hs
        · cases List.mem_singleton.mp hs
          exact hP
        · cases hs
    have hr' : ∀ s ∈ rest, P s := fun s hs => hr s (List.mem_cons_of_mem _ hs)
    unfold walk
    dsimp only
    split
    · exact ih (last (forall_mem_above hd)) hr'
    split
    · exact ih (last hd) hr'
    · refine ih (fun s hs => ?_) hr'
      rcases List.mem_append.mp hs with hs | hs
      · exact hd s hs
      · cases List.mem_singleton.mp hs
        exact hr r List.mem_cons_self

theorem slash_not_mem_encode {safe : Char → Bool} {t : List Char} (h : '/' ∉ t ∨ safe '/' = false) :
    '/' ∉ Percent.encode safe t := by
  intro hm
  rcases Percent.mem_encode hm with ⟨hs, ht⟩ | hp | ⟨n, hn, he⟩
  · rcases h with h | h
    · exact h ht
    · rw [h] at hs
      cases hs
  · cases hp
  · have := Digits.value?_upper hn
    rw [← he] at this
    cases this

/-- No added segment brings a `/`. -/
theorem slash_not_mem_foldl (special : Bool) {list added : List (List Char)} (h : ∀ s ∈ list, '/' ∉ s) :
    ∀ s ∈ added.foldl (pushSegment special) list, '/' ∉ s := by
  induction added generalizing list with
  | nil => exact h
  | cons s added ih =>
    refine ih ?_
    unfold pushSegment
    split
    · exact h
    refine forall_mem_walk List.not_mem_nil ?_ ?_
    · split
      · nofun
      · exact h
    · intro t ht
      cases List.mem_singleton.mp ht
      exact slash_not_mem_encode (.inr (by cases special <;> decide))

end HostedGit.Url
