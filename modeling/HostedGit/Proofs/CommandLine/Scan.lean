/-
Scanning words that each give one switch, with its value in the same word. A word that gives a switch of the level
settles it at once, so the switches of a level may be given in any order; what is found under a switch in the end are
the values that it was given, in order.
-/
import HostedGit.CommandLine.Parser
import Mathlib.Data.List.Induction
import Mathlib.Data.List.ReduceOption
import Mathlib.Data.List.TakeWhile

namespace HostedGit

/-! ## Numbers -/

theorem Digits.number?_of_isDigit {cs : List Char} (h : ∀ c ∈ cs, c.isDigit = true) :
    number? 10 cs = some (Nat.ofDigitChars 10 cs 0) := by
  unfold number?
  generalize 0 = n
  induction cs generalizing n with
  | nil => rfl
  | cons c cs ih =>
    rw [List.forall_mem_cons] at h
    have decimal : 48 ≤ c.toNat ∧ c.toNat ≤ 57 := by simpa [Char.isDigit, UInt32.le_iff_toNat_le] using h.1
    have value : value? c = some (c.toNat - '0'.toNat) :=
      if_pos ⟨UInt32.le_iff_toNat_le.mpr decimal.1, UInt32.le_iff_toNat_le.mpr decimal.2⟩
    have small : c.toNat - '0'.toNat < 10 := by
      show c.toNat - 48 < 10
      omega
    have step : (do let d ← value? c; if d < 10 then some (n * 10 + d) else none) =
        some (10 * n + (c.toNat - '0'.toNat)) := by
      rw [value, Nat.mul_comm]
      exact if_pos small
    rw [List.foldlM_cons, step, Nat.ofDigitChars_cons]
    exact ih h.2 _

/-- A number of seconds is read as it is written. -/
theorem Scan.number?_toString (n : UInt64) : number? (toString n.toNat) = some n := by
  have digits : (toString n.toNat).toList = Nat.toDigits 10 n.toNat := Nat.toList_repr
  have read : Digits.number? 10 (Nat.toDigits 10 n.toNat) = some n.toNat := by
    rw [Digits.number?_of_isDigit fun c hc => Nat.isDigit_of_mem_toDigits (by decide) (by decide) hc,
      Nat.ofDigitChars_ten_toDigits]
  have unsigned : ∀ rest, Nat.toDigits 10 n.toNat ≠ '+' :: rest := by
    intro rest h
    have : '+'.isDigit = true := Nat.isDigit_of_mem_toDigits (by decide) (by decide) (h ▸ List.mem_cons_self ..)
    exact absurd this (by decide)
  unfold number?
  rw [digits]
  dsimp only
  split
  · rename_i h
    exact absurd h (unsigned _)
  · rw [read]
    simp [Nat.toDigits_ne_nil, n.toNat_lt_size]

/-! ## Words -/

namespace Word

variable {name value : List Char}

theorem ofText_long {rest : List Char} (h : rest ≠ []) : ofText ('-' :: '-' :: rest) =
    .long (rest.takeWhile (· ≠ '=')) (let value := rest.dropWhile (· ≠ '=')
      if value.isEmpty then none else some (value.drop 1)) := by
  cases rest with
  | nil => exact absurd rfl h
  | cons c rest => rfl

theorem ofText_valued (hn : '=' ∉ name) : ofText ('-' :: '-' :: (name ++ '=' :: value)) = .long name (some value) := by
  have before : ∀ c ∈ name, decide (c ≠ '=') = true := fun c hc => decide_eq_true fun h => hn (h ▸ hc)
  rw [ofText_long (by simp), List.takeWhile_append_of_pos before, List.dropWhile_append_of_pos before]
  simp

theorem ofText_flag (h0 : name ≠ []) (hn : '=' ∉ name) : ofText ('-' :: '-' :: name) = .long name none := by
  have before : ∀ c ∈ name, decide (c ≠ '=') = true := fun c hc => decide_eq_true fun h => hn (h ▸ hc)
  rw [ofText_long h0, List.takeWhile_eq_self_iff.mpr before, List.dropWhile_eq_nil_iff.mpr before]
  rfl

end Word

/-- A switch as it is given in one word, perhaps with a value. -/
structure Given where
  switch : Switch
  value : Option String

namespace Given

/-- `--name` or `--name=value`. -/
def word (g : Given) : String := "--" ++ g.switch.long ++ g.value.elim "" ("=" ++ ·)

theorem toList_word (g : Given) :
    g.word.toList = '-' :: '-' :: (g.switch.long.toList ++ g.value.elim [] ('=' :: ·.toList)) := by
  obtain ⟨s, _ | v⟩ := g <;> simp [word]

theorem ofText_word (g : Given) : Word.ofText g.word.toList = .long g.switch.long.toList (g.value.map (·.toList)) := by
  have named : '=' ∉ g.switch.long.toList ∧ g.switch.long.toList ≠ [] := by
    cases g.switch <;> decide
  rw [toList_word]
  cases g.value with
  | none => simpa using Word.ofText_flag named.2 named.1
  | some v => exact Word.ofText_valued named.1

/-- A switch that may be given, with a value exactly if one goes with it, and a sound one. -/
structure IsSound (g : Given) : Prop where
  plain : g.switch ≠ .help ∧ g.switch ≠ .version
  valued : g.switch.takesValue = g.value.isSome
  faultless : ∀ v ∈ g.value, Scan.fault? (.switch g.switch) v = none

/-- Puts a value behind those that a switch has been given. -/
def enter (found : Table Slot (List String)) (g : Given) : Table Slot (List String) :=
  found.insert (.switch g.switch) ((found.lookup (.switch g.switch)).getD [] ++ g.value.toList)

/-- What a switch is given, in order: its values, or none each time. -/
def valuesOf (gs : List Given) (s : Switch) : List (Option String) := (gs.filter (·.switch = s)).map (·.value)

theorem valuesOf_append (gs gs' : List Given) (s : Switch) :
    valuesOf (gs ++ gs') s = valuesOf gs s ++ valuesOf gs' s := by
  simp [valuesOf]

theorem valuesOf_flatMap {α : Type} (l : List α) (f : α → List Given) (s : Switch) :
    valuesOf (l.flatMap f) s = l.flatMap fun a => valuesOf (f a) s := by
  unfold valuesOf
  rw [List.filter_flatMap, List.map_flatMap]

theorem valuesOf_map (values : List (Option String)) (s s' : Switch) :
    valuesOf (values.map (⟨s', ·⟩)) s = if s' = s then values else [] := by
  unfold valuesOf
  rw [List.filter_map]
  by_cases h : s' = s <;> simp [h, Function.comp_def]

theorem valuesOf_filter (q : Switch → Bool) (gs : List Given) (s : Switch) :
    valuesOf (gs.filter (q ·.switch)) s = if q s then valuesOf gs s else [] := by
  unfold valuesOf
  rw [List.filter_filter]
  cases hq : q s with
  | true =>
    have same : gs.filter (fun g => (decide (g.switch = s)) && q g.switch) = gs.filter (·.switch = s) := by
      refine List.filter_congr fun g _ => ?_
      by_cases h : g.switch = s <;> simp [h, hq]
    rw [same, if_pos rfl]
  | false =>
    have none : gs.filter (fun g => (decide (g.switch = s)) && q g.switch) = [] := by
      refine List.filter_eq_nil_iff.mpr fun g _ => ?_
      by_cases h : g.switch = s <;> simp [h, hq]
    rw [none, if_neg (by decide), List.map_nil]

/-- What may be given only once is given once, if there is at most one value. -/
theorem pairwise_of_length_le {gs : List Given} (h : ∀ s : Switch, s.repeats = false → (valuesOf gs s).length ≤ 1) :
    gs.Pairwise fun g g' => g.switch = g'.switch → g.switch.repeats = true := by
  induction gs with
  | nil => exact .nil
  | cons g gs ih =>
    have split (s : Switch) : valuesOf (g :: gs) s = valuesOf [g] s ++ valuesOf gs s := valuesOf_append [g] gs s
    refine .cons (fun g' hg' same => ?_) (ih fun s hs => ?_)
    · by_contra hr
      rw [Bool.not_eq_true] at hr
      have first : valuesOf [g] g.switch = [g.value] := by simp [valuesOf]
      have another : g'.value ∈ valuesOf gs g.switch :=
        List.mem_map.mpr ⟨g', List.mem_filter.mpr ⟨hg', decide_eq_true same.symm⟩, rfl⟩
      have two := h g.switch hr
      rw [split, first, List.length_append, List.length_singleton] at two
      have := List.length_pos_of_mem another
      omega
    · have all := h s hs
      rw [split, List.length_append] at all
      omega

theorem lookup_enter_all (gs : List Given) (s : Switch) : (gs.foldl enter .empty).lookup (.switch s) =
    if valuesOf gs s = [] then none else some (valuesOf gs s).reduceOption := by
  -- a value is put behind the earlier ones, so the induction is on the last switch that is given
  induction gs using List.reverseRecOn with
  | nil => rfl
  | append_singleton gs g ih =>
    rw [List.foldl_append]
    show (enter (gs.foldl enter .empty) g).lookup (.switch s) = _
    rw [enter, Table.lookup_insert, valuesOf_append]
    by_cases h : g.switch = s
    · have before : ((gs.foldl enter .empty).lookup (.switch s)).getD [] = (valuesOf gs s).reduceOption := by
        rw [ih]
        split
        · rename_i h
          rw [h]
          rfl
        · rfl
      have last : valuesOf [g] s = [g.value] := by simp [valuesOf, h]
      rw [h, if_pos rfl, before, last, List.reduceOption_append, List.reduceOption_singleton, if_neg (by simp)]
    · have last : valuesOf [g] s = [] := by simp [valuesOf, h]
      rw [if_neg (by simpa using Ne.symm h), ih, last, List.append_nil]

theorem lookup_place_enter_all (gs : List Given) (p : Place) : (gs.foldl enter .empty).lookup (.place p) = none := by
  induction gs using List.reverseRecOn with
  | nil => rfl
  | append_singleton gs g ih =>
    rw [List.foldl_append]
    show (enter (gs.foldl enter .empty) g).lookup (.place p) = _
    rw [enter, Table.lookup_insert, if_neg (by simp), ih]

end Given

/-! ## Steps of the scan -/

namespace Scan

variable {level : Level} {found : Table Slot (List String)} {free : List Place}

theorem put_ok {st : Scan} {slot : Slot} {values : List String} (hv : needsValue slot = true → values ≠ [])
    (hf : st.found.lookup slot = none ∨ repeats slot = true) (hs : ∀ v ∈ values, fault? slot v = none) :
    st.put slot values =
      .ok { st with found := st.found.insert slot ((st.found.lookup slot).getD [] ++ values) } := by
  have sound : values.findSome? (fault? slot) = none := List.findSome?_eq_none_iff.mpr hs
  have there : (needsValue slot && values.isEmpty) = false := by
    cases h : needsValue slot
    · rfl
    · simpa using hv h
  have free : ((st.found.lookup slot).isSome && !repeats slot) = false := by
    rcases hf with h | h <;> simp [h]
  simp [put, there, free, sound]

theorem general_subset (level : Level) : Switch.general ⊆ level.switches := by
  rcases level with _ | _ | _ | _ | _ <;> decide

theorem findLong?_long (level : Level) {s : Switch} (h : s ∈ level.switches) :
    findLong? level s.long.toList = some s := by
  revert s
  rcases level with _ | _ | _ | _ | _ <;> decide

theorem putLong_given {g : Given} (hl : g.switch ∈ level.switches) (hg : g.IsSound)
    (hf : found.lookup (.switch g.switch) = none ∨ g.switch.repeats = true) :
    (⟨found, none, false, free⟩ : Scan).putLong level g.switch.long.toList (g.value.map (·.toList)) =
      .ok ⟨g.enter found, none, false, free⟩ := by
  obtain ⟨s, value⟩ := g
  have entered : (⟨found, none, false, free⟩ : Scan).put (.switch s) value.toList =
      .ok ⟨Given.enter found ⟨s, value⟩, none, false, free⟩ := by
    refine put_ok (fun hv => ?_) hf fun v hv => hg.faultless v (by simpa using hv)
    obtain ⟨v, rfl⟩ := Option.isSome_iff_exists.mp (hg.valued.symm.trans hv)
    simp
  unfold putLong
  rw [findLong?_long level hl]
  dsimp only
  cases value with
  | some v =>
    have takes : s.takesValue = true := hg.valued
    have put : (⟨found, none, false, free⟩ : Scan).putValued s (some v.toList) =
        (⟨found, none, false, free⟩ : Scan).put (.switch s) [String.ofList v.toList] := rfl
    rw [if_pos takes, Option.map_some, put, String.ofList_toList]
    exact entered
  | none =>
    have takes : s.takesValue = false := hg.valued
    have put : (⟨found, none, false, free⟩ : Scan).putFlag level s =
        (⟨found, none, false, free⟩ : Scan).put (.switch s) [] := by
      cases s with
      | help => exact absurd rfl hg.plain.1
      | version => exact absurd rfl hg.plain.2
      | _ => rfl
    rw [takes, put]
    exact entered

/-- A word that begins with hyphens is not taken for a command, nor for the one that asks for help. -/
theorem command?_of_hyphen {word : String} {cs : List Char} (h : word.toList = '-' :: cs) :
    command? word = none ∧ word ≠ helpWord := by
  have head : word.toList.head? = some '-' := congrArg List.head? h
  constructor
  · rw [command?, List.find?_eq_none]
    rintro c - hc
    obtain rfl := of_decide_eq_true hc
    cases c <;> exact absurd head (by decide)
  · rintro rfl
    exact absurd head (by decide)

theorem run_given {g : Given} (hl : g.switch ∈ level.switches) (hg : g.IsSound)
    (hf : found.lookup (.switch g.switch) = none ∨ g.switch.repeats = true) (rest : List String) :
    run level ⟨found, none, false, free⟩ (g.word :: rest) = run level ⟨g.enter found, none, false, free⟩ rest := by
  obtain ⟨noCommand, noHelp⟩ := command?_of_hyphen g.toList_word
  rw [run]
  simp only [noCommand, noHelp, and_false, if_false, ite_self, g.ofText_word, putLong_given hl hg hf]
  rfl

/-- Switches may be given in any order, each as often as it may. -/
theorem run_given_all {gs : List Given} (hl : ∀ g ∈ gs, g.switch ∈ level.switches) (hg : ∀ g ∈ gs, g.IsSound)
    (once : gs.Pairwise fun g g' => g.switch = g'.switch → g.switch.repeats = true)
    (hf : ∀ g ∈ gs, found.lookup (.switch g.switch) = none ∨ g.switch.repeats = true) (rest : List String) :
    run level ⟨found, none, false, free⟩ (gs.map (·.word) ++ rest) =
      run level ⟨gs.foldl Given.enter found, none, false, free⟩ rest := by
  -- what is still to come is free, or may come again: `once` carries that over each step
  induction gs generalizing found with
  | nil => rfl
  | cons g gs ih =>
    rw [List.forall_mem_cons] at hl hg hf
    rw [List.pairwise_cons] at once
    rw [List.map_cons, List.cons_append, run_given hl.1 hg.1 hf.1]
    refine ih hl.2 hg.2 once.2 fun g' hg' => ?_
    rw [Given.enter, Table.lookup_insert]
    split
    · rename_i same
      exact .inr (Slot.switch.inj same ▸ once.1 g' hg' (Slot.switch.inj same).symm)
    · exact hf.2 g' hg'

theorem run_command (name : CommandName) (rest : List String) :
    run none ⟨found, none, false, free⟩ (name.word :: rest) =
      .ok (⟨found, none, false, free⟩, some (name, rest)) := by
  cases name <;> rfl

/-! ## What a scan has found -/

/-- A scan has found the values of these switches, and of no others. -/
def Finds (st : Scan) (gs : List Given) : Prop := ∀ s, st.found.lookup (.switch s) =
  if Given.valuesOf gs s = [] then none else some (Given.valuesOf gs s).reduceOption

namespace Finds

variable {st : Scan} {gs : List Given}

theorem values (h : st.Finds gs) (s : Switch) : st.values s = (Given.valuesOf gs s).reduceOption := by
  rw [Scan.values, h]
  split
  · rename_i none
    rw [none]
    rfl
  · rfl

theorem value? (h : st.Finds gs) (s : Switch) :
    st.value? (.switch s) = (Given.valuesOf gs s).reduceOption.head? := by
  rw [Scan.value?, h]
  split
  · rename_i none
    rw [none]
    rfl
  · rfl

theorem has (h : st.Finds gs) (s : Switch) : st.has s = !(Given.valuesOf gs s).isEmpty := by
  rw [Scan.has, h]
  cases Given.valuesOf gs s <;> rfl

end Finds

end Scan

/-! ## Places -/

namespace Command

/-- The name of a command. -/
def name : Command → CommandName
  | listRemote _ => .listRemote
  | tree _ _ _ => .tree
  | commit _ _ => .commit
  | download _ _ _ => .download

/-- What a command is given by its place. -/
def places : Command → List String
  | download url destination _ => [url, destination]
  | c => [c.url]

/-- A destination has to be a path, and no text is none. -/
def IsSound : Command → Prop
  | download _ destination _ => destination ≠ ""
  | _ => True

/-- Puts down what a command is given by its place. -/
def enter (found : Table Slot (List String)) : Command → Table Slot (List String)
  | download url destination _ => (found.insert (.place .url) [url]).insert (.place .destination) [destination]
  | c => found.insert (.place .url) [c.url]

variable {found : Table Slot (List String)}

theorem lookup_switch_enter (c : Command) (s : Switch) :
    (c.enter found).lookup (.switch s) = found.lookup (.switch s) := by
  cases c <;> simp [enter, Table.lookup_insert]

theorem lookup_url_enter (c : Command) : (c.enter found).lookup (.place .url) = some [c.url] := by
  cases c <;> simp [enter, url, Table.lookup_insert]

/-- All words after two hyphens are places, whatever they look like. -/
theorem run_places {c : Command} (hc : c.IsSound) (hf : ∀ p, found.lookup (.place p) = none) :
    ∃ st, Scan.run (some c.name) ⟨found, none, false, Level.places (some c.name)⟩ ("--" :: c.places) = .ok (st, none) ∧
      st.settle = .ok ⟨c.enter found, none, false, []⟩ := by
  have put {found : Table Slot (List String)} {p : Place} {word : String} (free : List Place)
      (hf : found.lookup (.place p) = none) (hw : Scan.fault? (.place p) word = none) :
      (⟨found, none, false, free⟩ : Scan).put (.place p) [word] =
        .ok ⟨found.insert (.place p) [word], none, false, free⟩ := by
    rw [Scan.put_ok (by simp) (.inl hf) (by simpa using hw)]
    simp only [hf, Option.getD_none, List.nil_append]
  cases c with
  | listRemote url => exact ⟨_, rfl, put [] (hf .url) rfl⟩
  | tree url reference extensions => exact ⟨_, rfl, put [] (hf .url) rfl⟩
  | commit url reference => exact ⟨_, rfl, put [] (hf .url) rfl⟩
  | download url destination reference =>
    have free : (found.insert (.place .url) [url]).lookup (.place .destination) = none := by
      rw [Table.lookup_insert, if_neg (by decide), hf]
    have sound : Scan.fault? (.place .destination) destination = none := by
      have given : destination ≠ "" := hc
      simpa [Scan.fault?, String.isEmpty_iff] using given
    refine ⟨⟨found.insert (.place .url) [url], some (.place .destination, [destination]), false, []⟩, ?_,
      put [] free sound⟩
    -- the URL is settled when the destination is taken
    have first : (⟨found, some (.place .url, [url]), false, [.destination]⟩ : Scan).settle = _ :=
      put [.destination] (hf .url) rfl
    have second : (⟨found, some (.place .url, [url]), false, [.destination]⟩ : Scan).putPlace (some .download)
        destination = .ok ⟨found.insert (.place .url) [url], some (.place .destination, [destination]), false, []⟩ := by
      unfold Scan.putPlace
      dsimp only
      rw [first]
      rfl
    have taken : Scan.putPlaces (some .download) ⟨found, none, false, [.url, .destination]⟩ [url, destination] =
        .ok ⟨found.insert (.place .url) [url], some (.place .destination, [destination]), false, []⟩ := by
      show (do
        let st ← Scan.putPlace (some .download) ⟨found, some (.place .url, [url]), false, [.destination]⟩ destination
        Scan.putPlaces (some .download) st []) = _
      rw [second]
      rfl
    show (do return (← Scan.putPlaces (some .download) ⟨found, none, false, [.url, .destination]⟩ [url, destination],
      none)) = _
    rw [taken]
    rfl

end Command

end HostedGit
