/-
Command lines as they are written out: every switch in one word with its value, the general ones before or after the
command's word as one likes, and what goes by its place after two hyphens. Whatever the values look like, such a command
line is read back as it was meant.
-/
import HostedGit.Proofs.CommandLine.Environment
import HostedGit.Proofs.CommandLine.Scan

namespace HostedGit

/-! ## Writing -/

namespace Command

/-- The reference that a command names. -/
def reference? : Command → Option String
  | listRemote _ => none
  | tree _ reference _ | commit _ reference => some reference
  | download _ _ reference => reference

/-- The extensions that a command asks for. -/
def extensions : Command → List String
  | tree _ _ extensions => extensions
  | _ => []

end Command

namespace Arguments

/-- How often a command line gives a switch, and with which values. -/
def spelling (a : Arguments) : Switch → List (Option String)
  | .username => a.username.toList.map some
  | .password => a.password.toList.map some
  | .timeout => a.timeout.toList.map fun n => some (toString n.toNat)
  | .insecure => if a.insecure then [none] else []
  | .noProxy => if a.noProxy then [none] else []
  | .baseUrl => a.baseUrl.toList.map some
  | .reference => a.command.reference?.toList.map some
  | .extension => a.command.extensions.map some
  | .help | .version => []

/-- The words that switches before and after the command's word make. -/
def wordsOf (a : Arguments) (outer inner : List Given) : List String :=
  outer.map (·.word) ++ a.command.name.word :: (inner.map (·.word) ++ "--" :: a.command.places)

/-- Words that say a command line: all of its switches are given, in any order, and only general ones before the
command's word. -/
inductive WrittenAs (a : Arguments) : List String → Prop
  | intro {outer inner : List Given} (general : ∀ g ∈ outer, g.switch ∈ Switch.general)
    (spelled : ∀ s, Given.valuesOf (outer ++ inner) s = a.spelling s) : WrittenAs a (a.wordsOf outer inner)

/-- All switches of a command line, one kind after the other. -/
def given (a : Arguments) : List Given :=
  [.username, .password, .timeout, .insecure, .noProxy, .baseUrl, .reference, .extension].flatMap fun s =>
    (a.spelling s).map (⟨s, ·⟩)

/-- A command line in words, where `before` says which of the general switches stand before the command's word. -/
def words (a : Arguments) (before : Switch → Bool) : List String :=
  let isOuter (g : Given) := Switch.general.contains g.switch && before g.switch
  a.wordsOf (a.given.filter isOuter) (a.given.filter (!isOuter ·))

theorem valuesOf_given (a : Arguments) (s : Switch) : Given.valuesOf a.given s = a.spelling s := by
  unfold given
  rw [Given.valuesOf_flatMap]
  simp only [Given.valuesOf_map]
  cases s <;> simp <;> rfl

theorem writtenAs_words (a : Arguments) (before : Switch → Bool) : a.WrittenAs (a.words before) := by
  refine .intro (fun g hg => ?_) fun s => ?_
  · have outer := (List.mem_filter.mp hg).2
    rw [Bool.and_eq_true] at outer
    exact List.contains_iff_mem.mp outer.1
  · rw [Given.valuesOf_append, Given.valuesOf_filter fun s => Switch.general.contains s && before s,
      Given.valuesOf_filter fun s => !(Switch.general.contains s && before s), valuesOf_given]
    cases Switch.general.contains s && before s <;> simp

/-! ## What is given -/

variable {a : Arguments} {s : Switch}

theorem length_spelling (a : Arguments) (hs : s.repeats = false) : (a.spelling s).length ≤ 1 := by
  have once {α : Type} (value? : Option α) (f : α → Option String) : (value?.toList.map f).length ≤ 1 := by
    cases value? <;> simp
  have flag (isSet : Bool) : (if isSet then [none] else [] : List (Option String)).length ≤ 1 := by
    cases isSet <;> decide
  cases s with
  | extension => cases hs
  | insecure | noProxy => exact flag _
  | help | version => exact Nat.zero_le 1
  | _ => exact once _ _

theorem isSound_of_mem {v : Option String} (h : v ∈ a.spelling s) : Given.IsSound ⟨s, v⟩ := by
  have plain : s ≠ .help ∧ s ≠ .version := by
    constructor <;> rintro rfl <;> cases h
  cases s with
  | timeout =>
    obtain ⟨n, -, rfl⟩ := List.mem_map.mp h
    refine ⟨plain, rfl, ?_⟩
    rintro _ ⟨⟩
    rw [Scan.fault?, Scan.number?_toString]
    rfl
  | insecure | noProxy =>
    obtain ⟨-, rfl⟩ : _ ∧ v = none := by simpa [spelling] using h
    exact ⟨plain, rfl, fun _ _ => rfl⟩
  | help | version => cases h
  | _ =>
    obtain ⟨text, -, rfl⟩ := List.mem_map.mp h
    exact ⟨plain, rfl, fun _ _ => rfl⟩

theorem mem_switches_of_mem {v : Option String} (h : v ∈ a.spelling s) : s ∈ Level.switches (some a.command.name) := by
  cases s with
  | reference =>
    cases hc : a.command with
    | listRemote url => simp [spelling, hc, Command.reference?] at h
    | _ => exact List.mem_cons_self ..
  | extension =>
    cases hc : a.command with
    | tree url reference extensions => exact List.mem_cons_of_mem _ (List.mem_cons_self ..)
    | _ => simp [spelling, hc, Command.extensions] at h
  | _ => exact Scan.general_subset _ (by decide)

/-! ## Reading -/

section

variable {outer inner : List Given} (spelled : ∀ s, Given.valuesOf (outer ++ inner) s = a.spelling s)
include spelled

theorem value_mem_spelling {g : Given} (hg : g ∈ outer ++ inner) : g.value ∈ a.spelling g.switch := by
  rw [← spelled]
  exact List.mem_map.mpr ⟨g, List.mem_filter.mpr ⟨hg, decide_eq_true rfl⟩, rfl⟩

theorem pairwise_of_spelled :
    (outer ++ inner).Pairwise fun g g' => g.switch = g'.switch → g.switch.repeats = true :=
  Given.pairwise_of_length_le fun s hs => by rw [spelled]; exact a.length_spelling hs

variable (general : ∀ g ∈ outer, g.switch ∈ Switch.general)
include general

/-- What is not general stands after the command's word. -/
theorem valuesOf_inner (hs : s ∉ Switch.general) : Given.valuesOf inner s = a.spelling s := by
  have outside : Given.valuesOf outer s = [] := by
    have none : outer.filter (·.switch = s) = [] := List.filter_eq_nil_iff.mpr fun g hg h =>
      hs (of_decide_eq_true h ▸ general g hg)
    rw [Given.valuesOf, none, List.map_nil]
  rw [← spelled, Given.valuesOf_append, outside, List.nil_append]

/-- What is found after the command's word is complete, and says the command. -/
theorem command_of_finds {st : Scan} (h : st.Finds inner) {found : Table Slot (List String)}
    (hp : st.found = a.command.enter found) :
    st.isComplete (some a.command.name) = true ∧ st.toCommand a.command.name = a.command := by
  have reference : st.value? (.switch .reference) = a.command.reference? := by
    rw [h.value?, valuesOf_inner spelled general (by decide)]
    unfold spelling
    cases a.command.reference? <;> rfl
  have extensions : st.values .extension = a.command.extensions := by
    rw [h.values, valuesOf_inner spelled general (by decide)]
    show (a.command.extensions.map some).filterMap id = a.command.extensions
    rw [List.filterMap_map]
    exact List.filterMap_some
  have url : st.value? (.place .url) = some a.command.url := by
    rw [Scan.value?, hp, Command.lookup_url_enter]
    rfl
  generalize a.command = c at *
  cases c with
  | listRemote url' =>
    simp [Scan.isComplete, Scan.toCommand, Level.places, Level.required, Command.name, url, Command.url]
  | tree url' reference' extensions' =>
    simp [Scan.isComplete, Scan.toCommand, Level.places, Level.required, Command.name, url, Command.url, reference,
      Command.reference?, extensions, Command.extensions]
  | commit url' reference' =>
    simp [Scan.isComplete, Scan.toCommand, Level.places, Level.required, Command.name, url, Command.url, reference,
      Command.reference?]
  | download url' destination reference' =>
    have placed : st.value? (.place .destination) = some destination := by
      rw [Scan.value?, hp, Command.enter, Table.lookup_insert, if_pos rfl]
      rfl
    simp [Scan.isComplete, Scan.toCommand, Level.places, Level.required, Command.name, url, Command.url, reference,
      Command.reference?, placed]

/-- The words of both levels are settled as they are given. -/
theorem scans_wordsOf (hc : a.command.IsSound) : ∃ outside inside, outside.Finds outer ∧ inside.Finds inner ∧
    inside.toCommand a.command.name = a.command ∧
    scans (a.wordsOf outer inner) = .ok (outside, some (inside, a.command.name)) := by
  have sound (g : Given) (hg : g ∈ outer ++ inner) : g.IsSound := isSound_of_mem (value_mem_spelling spelled hg)
  have once := List.pairwise_append.mp (pairwise_of_spelled spelled)
  have outside : (Scan.start none).run none (a.wordsOf outer inner) =
      .ok (⟨outer.foldl Given.enter .empty, none, false, []⟩,
        some (a.command.name, inner.map (·.word) ++ "--" :: a.command.places)) :=
    (Scan.run_given_all general (fun g hg => sound g (List.mem_append_left _ hg)) once.1 (fun _ _ => .inl rfl) _).trans
      (Scan.run_command _ _)
  obtain ⟨st, placed, settled⟩ := Command.run_places hc (Given.lookup_place_enter_all inner)
  have inside : (Scan.start (some a.command.name)).run (some a.command.name)
      (inner.map (·.word) ++ "--" :: a.command.places) = .ok (st, none) :=
    (Scan.run_given_all (fun g hg => mem_switches_of_mem (value_mem_spelling spelled (List.mem_append_right _ hg)))
      (fun g hg => sound g (List.mem_append_right _ hg)) once.2.1 (fun _ _ => .inl rfl) _).trans placed
  have foundOutside : (⟨outer.foldl Given.enter .empty, none, false, []⟩ : Scan).Finds outer :=
    Given.lookup_enter_all outer
  have foundInside : (⟨a.command.enter (inner.foldl Given.enter .empty), none, false, []⟩ : Scan).Finds inner :=
    fun s => (a.command.lookup_switch_enter s).trans (Given.lookup_enter_all inner s)
  obtain ⟨complete, command⟩ := command_of_finds spelled general foundInside rfl
  refine ⟨_, _, foundOutside, foundInside, command, ?_⟩
  unfold scans
  simp only [outside, inside, settled, complete, bind, Except.bind]
  rfl

omit general in
/-- What both levels have found is what the command line says. -/
theorem ofScans_of_finds {outside inside : Scan} (ho : outside.Finds outer) (hi : inside.Finds inner)
    (command : inside.toCommand a.command.name = a.command) :
    ofScans .silent outside inside a.command.name = a := by
  have value (s : Switch) (hs : s.repeats = false) :
      (inside.value? (.switch s) <|> outside.value? (.switch s)) = (a.spelling s).reduceOption.head? := by
    have once := a.length_spelling hs
    rw [← spelled, Given.valuesOf_append] at once
    rw [hi.value?, ho.value?, ← spelled, Given.valuesOf_append]
    -- at most one of the levels says something
    rcases ho : Given.valuesOf outer s with _ | ⟨v, rest⟩
    · simp
    · have nothing : Given.valuesOf inner s = [] := by
        rw [ho, List.length_append, List.length_cons] at once
        exact List.eq_nil_of_length_eq_zero (by omega)
      simp [nothing]
  have has (s : Switch) : (inside.has s || outside.has s) = !(a.spelling s).isEmpty := by
    rw [hi.has, ho.has, ← spelled, Given.valuesOf_append]
    cases Given.valuesOf outer s <;> simp
  have text (value? : Option String) : (value?.toList.map some).reduceOption.head? = value? := by
    cases value? <;> rfl
  have alone (value? : Option String) : (value? <|> none) = value? := by
    cases value? <;> rfl
  have seconds (value? : Option UInt64) :
      (value?.toList.map fun n => some (toString n.toNat)).reduceOption.head?.bind Scan.number? = value? := by
    cases value? with
    | none => rfl
    | some n => exact Scan.number?_toString n
  have flag (isSet : Bool) : (!(if isSet then [none] else [] : List (Option String)).isEmpty) = isSet := by
    cases isSet <;> rfl
  unfold ofScans Environment.silent
  simp only [command, value .username rfl, value .password rfl, value .timeout rfl, value .baseUrl rfl, has, spelling,
    text, alone, seconds, flag]

end

/-- A command line that is written out is read back, whatever its values are and wherever its general switches stand;
the environment says what the command line does not, and nothing else. -/
theorem parse_writtenAs (env : Environment) (hc : a.command.IsSound) :
    (∀ before, a.WrittenAs (a.words before)) ∧ ∀ words, a.WrittenAs words → parse env words = .ok (a.under env) := by
  refine ⟨a.writtenAs_words, ?_⟩
  rintro _ ⟨general, spelled⟩
  obtain ⟨outside, inside, foundOutside, foundInside, command, scanned⟩ := scans_wordsOf spelled general hc
  have read := ofScans_of_finds spelled foundOutside foundInside command
  rw [parse_eq, scanned]
  show Except.ok (ofScans env outside inside a.command.name) = _
  rw [ofScans_eq_under, read]

/-- Values that look like switches, an empty one and one that begins with the sign before values are taken as they are;
the environment says the password alone. -/
theorem parse_writtenAs_lookalikes :
    let a : Arguments := ⟨some "", none, some 7, true, false, some "--", .download "--help" "-" (some "=")⟩
    let words := ["--timeout=7", "--insecure", "download", "--ref==", "--base-url=--", "--username=", "--",
      "--help", "-"]
    (a.command.IsSound ∧ a.WrittenAs words) ∧
      parse ⟨some "other", some "secret"⟩ words = .ok { a with password := some "secret" } := by
  intro a words
  have sound : a.command.IsSound := by
    show "-" ≠ ""
    decide
  have written : a.WrittenAs words := by
    have spelled : a.WrittenAs (a.wordsOf [⟨.timeout, some "7"⟩, ⟨.insecure, none⟩]
        [⟨.reference, some "="⟩, ⟨.baseUrl, some "--"⟩, ⟨.username, some ""⟩]) := by
      refine .intro (by decide) fun s => ?_
      cases s <;> rfl
    exact spelled
  exact ⟨⟨sound, written⟩, (parse_writtenAs ⟨some "other", some "secret"⟩ sound).2 words written⟩

end Arguments

end HostedGit
