/-
Names that lead out of the destination. An entry of such a name is not passed over: it ends the work, so that an
archive comes to what the entries before it come to, and fails. Without such entries it can come to more.
-/
import HostedGit.Proofs.Archive.Extract
import HostedGit.Proofs.Archive.Written
import Mathlib.Data.List.Forall2
import Mathlib.Data.List.Infix

namespace HostedGit

/-- The same error, told of another number of entries. -/
def ExtractError.ofCount (count : Nat) : ExtractError → ExtractError
  | entries _ destination => entries count destination
  | e => e

namespace Extract

variable {archive archive' : Octets} {d : Path} {e e' : Zip.Entry} {all chosen : List Zip.Entry} {t t' : FileTree}

/-! ## Names -/

/-- Whether a component of a name leads to the directory above. -/
def goesUp (part : List Char) : Bool := part = "..".toList

/-- Whether a component of a name leads to something below. -/
def goesDown (part : List Char) : Bool := part ≠ [] && part ≠ ".".toList && !goesUp part

/-- Components that lead out of the place where they start: at some point, they have gone up more often than down. -/
def Climbs (parts : List (List Char)) : Prop :=
  ∃ front, front <+: parts ∧ front.countP goesDown < front.countP goesUp

/-- A name that leads out of the destination: an absolute one, or one that climbs. -/
def Escapes (name : List Char) : Prop := name.head? = some '/' ∨ Climbs (name.splitOn '/')

instance (parts : List (List Char)) : Decidable (Climbs parts) :=
  decidable_of_iff (∃ front ∈ parts.inits, front.countP goesDown < front.countP goesUp) (by simp [Climbs])

instance (name : List Char) : Decidable (Escapes name) := inferInstanceAs (Decidable (_ ∨ _))

theorem resolve?_eq_none_iff {way : List String} {parts : List (List Char)} :
    resolve? way parts = none ↔
      ∃ front, front <+: parts ∧ way.length + front.countP goesDown < front.countP goesUp := by
  induction parts generalizing way with
  | nil => simp [resolve?]
  | cons part parts ih =>
    have step : (∃ front, front <+: part :: parts ∧ way.length + front.countP goesDown < front.countP goesUp) ↔
        ∃ front, front <+: parts ∧
          way.length + (part :: front).countP goesDown < (part :: front).countP goesUp := by
      constructor
      · rintro ⟨front, hf, hlt⟩
        rcases List.prefix_cons_iff.mp hf with rfl | ⟨front, rfl, hf⟩
        · exact absurd hlt (Nat.not_lt_zero _)
        · exact ⟨front, (List.cons_prefix_cons.mp hf).2, hlt⟩
      · rintro ⟨front, hf, hlt⟩
        exact ⟨part :: front, List.cons_prefix_cons.mpr ⟨rfl, hf⟩, hlt⟩
    rw [step]
    unfold resolve?
    split
    · -- it stays where it is
      rename_i stays
      have up : goesUp part = false := by rcases stays with rfl | rfl <;> rfl
      have down : goesDown part = false := by rcases stays with rfl | rfl <;> rfl
      simp only [ih, List.countP_cons, up, down]
      rfl
    rename_i moves
    split
    · rename_i up
      have up : goesUp part = true := decide_eq_true up
      have down : goesDown part = false := by simp [goesDown, up]
      simp only [List.countP_cons, up, down]
      cases way with
      | nil => exact iff_of_true rfl ⟨[], List.nil_prefix, Nat.zero_lt_one⟩
      | cons _ way =>
        rw [ih]
        refine exists_congr fun front => and_congr_right fun _ => ?_
        simp
        omega
    · rename_i up
      have up : goesUp part = false := decide_eq_false up
      have down : goesDown part = true := by
        obtain ⟨hempty, hdot⟩ := not_or.mp moves
        rw [goesDown, up, decide_eq_true hempty, decide_eq_true hdot]
        rfl
      rw [ih]
      refine exists_congr fun front => and_congr_right fun _ => ?_
      simp [up, down]
      omega

theorem place?_eq_none_iff {name : List Char} : place? name = none ↔ Escapes name ∨ '\x00' ∈ name := by
  unfold place? Escapes Climbs
  split
  · rename_i h
    rw [List.contains_iff_mem] at h
    tauto
  · rename_i h
    rw [not_or, List.contains_iff_mem] at h
    rw [resolve?_eq_none_iff]
    simp [h]

/-! ## Entries -/

theorem entry_of_escapes (h : Escapes e.name) (archive : Octets) (d : Path) (t : FileTree) :
    (entry archive d e).run.run t = (none, t) := by
  rw [entry_run, place?_eq_none_iff.mpr (.inl h)]
  cases e.content? archive <;> rfl

/-- The entries before the first one whose name escapes. -/
def beforeEscape (all : List Zip.Entry) : List Zip.Entry := all.takeWhile fun e => ¬ Escapes e.name

/-- The entries whose names do not escape. -/
def withoutEscapes (all : List Zip.Entry) : List Zip.Entry := all.filter fun e => ¬ Escapes e.name

/-- The first name that escapes ends the work. -/
theorem entries_of_escapes (h : ∃ e ∈ all, Escapes e.name) (archive : Octets) (d : Path) (t : FileTree) :
    (entries archive d all).run.run t = (none, ((entries archive d (beforeEscape all)).run.run t).2) := by
  unfold beforeEscape
  induction all generalizing t with
  | nil =>
    obtain ⟨_, he, -⟩ := h
    cases he
  | cons e rest ih =>
    rw [entries_cons]
    by_cases here : Escapes e.name
    · rw [entry_of_escapes here, List.takeWhile_cons_of_neg (by simpa using here)]
      rfl
    · rw [List.takeWhile_cons_of_pos (by simpa using here), entries_cons]
      rcases (entry archive d e).run.run t with ⟨_ | _, t'⟩
      · rfl
      · exact ih (by simpa [here] using h) t'

/-! ## Archives that hold some entries of others -/

/-- Entries of two archives that are unpacked alike: one name, one kind, and one content. -/
structure Alike (archive archive' : Octets) (e e' : Zip.Entry) : Prop where
  name : e'.name = e.name
  link : e'.isLink = e.isLink
  content : e'.content? archive' = e.content? archive

/-- An archive of some entries of another. -/
def Selects (archive : Octets) (chosen : List Zip.Entry) (archive' : Octets) : Prop :=
  ∃ all', Zip.read? archive' = some all' ∧ List.Forall₂ (Alike archive archive') chosen all'

theorem Alike.entry (h : Alike archive archive' e e') (d : Path) : entry archive' d e' = entry archive d e := by
  unfold Extract.entry Zip.Entry.isDirectory
  rw [h.name, h.link, h.content]

theorem entries_alike {all' : List Zip.Entry} (h : List.Forall₂ (Alike archive archive') all all') (d : Path) :
    entries archive' d all' = entries archive d all := by
  induction h with
  | nil => rfl
  | cons he _ ih => rw [entries, entries, he.entry, ih]

/-- How it comes out when some entries of an archive are unpacked into a destination, before any file is locked. -/
def attempt (archive : Octets) (chosen : List Zip.Entry) (destination : String) (t : FileTree) :
    Except ExtractError Nat × FileTree :=
  match (makeDestination destination).run.run t with
  | (none, t) => (.error (.noDestination destination), t)
  | (some (), t) =>
    if destination = "" || longestPath < FileTree.size (FileTree.place destination) then
      (.error (.entries chosen.length destination), t)
    else
      let out := (entries archive (FileTree.place destination) chosen).run.run t
      (if out.1.isSome then .ok chosen.length else .error (.entries chosen.length destination), out.2)

/-- A tree after an attempt: where that went well, files are locked as some entries say. -/
def settled (all : List Zip.Entry) (destination : String) (out : Except ExtractError Nat × FileTree) : FileTree :=
  match out.1 with
  | .ok _ => all.foldl (settle (FileTree.place destination)) out.2
  | .error _ => out.2

theorem lookup_settled_attempt (all : List Zip.Entry) (destination : String) (out : Except ExtractError Nat × FileTree)
    (p : Path) : (settled all destination out).lookup p = out.2.lookup p := by
  unfold settled
  cases out.1 with
  | ok _ => exact lookup_settled _ _ _ p
  | error _ => rfl

/-- An archive of some entries of another is unpacked as these are, and then its own entries lock files. -/
theorem archive_of_selects (h : Selects archive chosen archive') (name destination : String) (t : FileTree) :
    let out := attempt archive chosen destination t
    ∃ all', Zip.read? archive' = some all' ∧
      (Extract.archive name (some archive') destination).run.run t = (out.1, settled all' destination out) := by
  intro out
  obtain ⟨all', hr, alike⟩ := h
  refine ⟨all', hr, ?_⟩
  unfold out attempt
  rw [archive_of_read hr, ← alike.length_eq]
  rcases (makeDestination destination).run.run t with ⟨_ | _, made⟩
  · rfl
  dsimp only
  rw [unpack_run, entries_alike alike]
  split
  · rfl
  · rcases (entries archive (FileTree.place destination) chosen).run.run made with ⟨_ | _, t₁⟩ <;> rfl

theorem outcome_of_selects (h : Selects archive chosen archive') (name destination : String) (t : FileTree) :
    let out := (Extract.archive name (some archive') destination).run.run t
    out.1 = (attempt archive chosen destination t).1 ∧
      ∀ p, out.2.lookup p = (attempt archive chosen destination t).2.lookup p := by
  intro out
  obtain ⟨all', -, run⟩ := archive_of_selects h name destination t
  unfold out
  rw [run]
  exact ⟨rfl, lookup_settled_attempt all' destination _⟩

theorem selects_self (h : Zip.read? archive = some all) : Selects archive all archive :=
  ⟨all, h, List.forall₂_same.mpr fun _ _ => ⟨rfl, rfl, rfl⟩⟩

/-- An archive that has been written of some files of another. -/
theorem selects_written {ms : List Zip.Member} (fits : Zip.Fits ms) (names : (ms.map (·.name)).Nodup)
    (h : List.Forall₂ (fun m e => e.name = m.name ∧ e.isLink = false ∧ e.content? archive = some ⟨m.content, true⟩)
      ms chosen) :
    Selects archive chosen (Zip.written ms) := by
  refine ⟨_, Zip.read?_written fits names, ?_⟩
  have stored := Zip.stored_written fits
  -- only what the two archives hold matters from here on
  generalize Zip.entriesOf 0 ms = all', Zip.written ms = archive' at stored ⊢
  clear fits names
  induction h generalizing all' with
  | nil =>
    cases stored
    exact .nil
  | cons here _ ih =>
    cases stored with
    | cons there rest =>
      exact .cons ⟨there.1.trans here.1.symm, there.2.1.trans here.2.1.symm, there.2.2.trans here.2.2.symm⟩
        (ih _ rest)

/-- Where a name escapes, nothing more is unpacked than the entries before that name. -/
theorem attempt_of_escapes (h : ∃ e ∈ all, Escapes e.name) (archive : Octets) (destination : String) (t : FileTree) :
    let first := attempt archive (beforeEscape all) destination t
    attempt archive all destination t =
      (.error (match first.1 with
        | .ok _ => .entries all.length destination
        | .error e => e.ofCount all.length), first.2) := by
  intro first
  unfold first attempt
  rcases (makeDestination destination).run.run t with ⟨_ | _, made⟩
  · rfl
  dsimp only
  rw [entries_of_escapes h]
  split
  · rfl
  · rcases (entries archive (FileTree.place destination) (beforeEscape all)).run.run made with ⟨_ | _, t₁⟩ <;> rfl

/-- Where a name escapes, an archive comes to what the entries before that name come to, and fails. -/
theorem archive_of_escapes {early : Octets} (h : ∃ e ∈ all, Escapes e.name) (hr : Zip.read? archive = some all)
    (hearly : Selects archive (beforeEscape all) early) (name destination : String) (t : FileTree) :
    let out := (Extract.archive name (some archive) destination).run.run t
    let first := (Extract.archive name (some early) destination).run.run t
    out.1 = .error (match first.1 with
      | .ok _ => .entries all.length destination
      | .error e => e.ofCount all.length) ∧
      (∀ p, out.2.lookup p = first.2.lookup p) ∧
      ∃ all', Zip.read? early = some all' ∧ first.2 = settled all' destination (first.1, out.2) := by
  intro out first
  obtain ⟨_, -, run⟩ := archive_of_selects (selects_self hr) name destination t
  obtain ⟨all', hr', run'⟩ := archive_of_selects hearly name destination t
  unfold out first
  rw [run, run', attempt_of_escapes h]
  have same := lookup_settled_attempt all' destination (attempt archive (beforeEscape all) destination t)
  exact ⟨rfl, fun p => (same p).symm, all', hr', rfl⟩

/-- What went wrong, if something did, whatever the number of entries. -/
def flaw? : Except ExtractError Nat → Option ExtractError
  | .ok _ => none
  | .error e => some (e.ofCount 0)

/-- What can go wrong with an archive that can be read. -/
theorem error_of_selects (h : Selects archive chosen archive') {name destination : String} {t : FileTree}
    {error : ExtractError} (he : ((Extract.archive name (some archive') destination).run.run t).1 = .error error) :
    error.ofCount 0 =
      if ((makeDestination destination).run.run t).1.isSome then .entries 0 destination
      else .noDestination destination := by
  rw [(outcome_of_selects h name destination t).1] at he
  unfold attempt at he
  rcases hm : (makeDestination destination).run.run t with ⟨_ | _, made⟩ <;> rw [hm] at he
  · cases he
    rfl
  · dsimp only at he
    split at he
    · cases he
      rfl
    · split at he <;> cases he
      rfl

/-- Two attempts that came out alike: both went well, or the same went wrong; and all places are alike. -/
def SameOutcome (out out' : Except ExtractError Nat × FileTree) : Prop :=
  flaw? out.1 = flaw? out'.1 ∧ ∀ p, out.2.lookup p = out'.2.lookup p

/-- An archive with a name that leads out of the destination comes to what the entries before that name come to, up to
the locks that would come last, and fails. So it comes out as it would without the entries of such names exactly if
there are none, or if it fails even without them and leaves no more than those before the first of them. -/
theorem escape_ends_archive (hr : Zip.read? archive = some all) {early clean : Octets}
    (hearly : Selects archive (beforeEscape all) early) (hclean : Selects archive (withoutEscapes all) clean)
    (name destination : String) (t : FileTree) :
    let run := fun content => (Extract.archive name (some content) destination).run.run t
    ((∃ e ∈ all, Escapes e.name) →
      (run archive).1 = .error (match (run early).1 with
        | .ok _ => .entries all.length destination
        | .error e => e.ofCount all.length) ∧
      (∀ p, (run archive).2.lookup p = (run early).2.lookup p) ∧
      ∃ all', Zip.read? early = some all' ∧ (run early).2 = settled all' destination ((run early).1, (run archive).2)) ∧
      (SameOutcome (run archive) (run clean) ↔ (∀ e ∈ all, ¬ Escapes e.name) ∨
        (∃ e, (run clean).1 = .error e) ∧ ∀ p, (run clean).2.lookup p = (run early).2.lookup p) := by
  intro run
  have ends (h : ∃ e ∈ all, Escapes e.name) := archive_of_escapes h hr hearly name destination t
  refine ⟨ends, ?_⟩
  by_cases h : ∃ e ∈ all, Escapes e.name
  · obtain ⟨fails, left, -⟩ := ends h
    have some_escape : ¬ ∀ e ∈ all, ¬ Escapes e.name := by simpa using h
    unfold SameOutcome
    rw [or_iff_right some_escape]
    refine and_congr ?_ (forall_congr' fun p => ?_)
    · constructor
      · intro same
        rw [fails] at same
        cases hc : (run clean).1 with
        | ok n =>
          rw [hc] at same
          cases same
        | error e => exact ⟨e, rfl⟩
      · rintro ⟨e, he⟩
        have wrong := error_of_selects (selects_self hr) fails
        rw [fails, he]
        exact congrArg some (wrong.trans (error_of_selects hclean he).symm)
    · rw [left p]
      exact eq_comm
  · have none_escapes : ∀ e ∈ all, ¬ Escapes e.name := by simpa using h
    have whole : withoutEscapes all = all := List.filter_eq_self.mpr (by simpa using none_escapes)
    rw [whole] at hclean
    obtain ⟨result, left⟩ := outcome_of_selects (selects_self hr) name destination t
    obtain ⟨result', left'⟩ := outcome_of_selects hclean name destination t
    refine iff_of_true ⟨?_, fun p => (left p).trans (left' p).symm⟩ (.inl none_escapes)
    rw [result, result']

/-- A name that leads out, between two files: the file before it is unpacked, the one behind it is not. -/
theorem escape_ends_archive_between :
    let a : Zip.Member := ⟨"a".toList, [0x78]⟩
    let x : Zip.Member := ⟨"d/../../x".toList, [0x79]⟩
    let b : Zip.Member := ⟨"b".toList, [0x7A]⟩
    let archive := Zip.written [a, x, b]
    let early := Zip.written [a]
    let clean := Zip.written [a, b]
    let run := fun content => (Extract.archive "a.zip" (some content) "out").run.run FileTree.empty
    (∃ all, Zip.read? archive = some all ∧ Selects archive (beforeEscape all) early ∧
      Selects archive (withoutEscapes all) clean) ∧
    ((run archive).1 = .error (.entries 3 "out") ∧ ∀ p, (run archive).2.lookup p = (run early).2.lookup p) ∧
      ¬ SameOutcome (run archive) (run clean) ∧
      (run archive).2.lookup ["out", "a"] = some (.file [0x78]) ∧ (run archive).2.lookup ["out", "b"] = none := by
  intro a x b archive early clean run
  have fits : Zip.Fits [a, x, b] := ⟨by decide, by decide +kernel, by decide +kernel⟩
  have hr : Zip.read? archive = some [a.entry 0, x.entry 32, b.entry 72] := Zip.read?_written fits (by decide)
  obtain ⟨ha, hrest⟩ := List.forall₂_cons.mp (Zip.stored_written fits)
  obtain ⟨hx, hrest⟩ := List.forall₂_cons.mp hrest
  obtain ⟨hb, -⟩ := List.forall₂_cons.mp hrest
  have hearly : Selects archive (beforeEscape [a.entry 0, x.entry 32, b.entry 72]) early :=
    selects_written ⟨by decide, by decide +kernel, by decide +kernel⟩ (by decide) (.cons ha .nil)
  have hclean : Selects archive (withoutEscapes [a.entry 0, x.entry 32, b.entry 72]) clean :=
    selects_written ⟨by decide, by decide +kernel, by decide +kernel⟩ (by decide) (.cons ha (.cons hb .nil))
  obtain ⟨ends, alike⟩ := escape_ends_archive hr hearly hclean "a.zip" "out" FileTree.empty
  have one : (run early).1.toOption = some 1 := by decide +kernel
  have two : (run clean).1.toOption = some 2 := by decide +kernel
  obtain ⟨error, left, -⟩ := ends ⟨x.entry 32, by simp, by decide⟩
  refine ⟨⟨_, hr, hearly, hclean⟩, ⟨error.trans ?_, left⟩, ?_, by decide +kernel⟩
  · show Except.error (match (run early).1 with
      | .ok _ => _
      | .error e => _) = _
    cases first : (run early).1 with
    | error e =>
      rw [first] at one
      cases one
    | ok n => rfl
  · intro same
    rcases alike.mp same with none_escapes | ⟨⟨e, he⟩, -⟩
    · exact none_escapes (x.entry 32) (by simp) (by decide)
    · have he : (run clean).1 = .error e := he
      rw [he] at two
      cases two

/-- An entry that leads out of the destination, and a file behind it that is not unpacked; without the entry, it is. -/
theorem escape_not_skipped :
    let archive := Zip.written [⟨"../x".toList, [0x79]⟩, ⟨"b".toList, [0x7A]⟩]
    let clean := Zip.written [⟨"b".toList, [0x7A]⟩]
    let run := fun content => (Extract.archive "a.zip" (some content) "out").run.run FileTree.empty
    (Zip.read? archive).map (·.map (·.name)) = some ["../x".toList, "b".toList] ∧ Escapes "../x".toList ∧
      (Zip.read? clean).map (·.map (·.name)) = some ["b".toList] ∧ ¬ Escapes "b".toList ∧
      (run archive).1.toOption = none ∧ (run archive).2.lookup ["out", "b"] = none ∧
      (run clean).1.toOption = some 1 ∧ (run clean).2.lookup ["out", "b"] = some (.file [0x7A]) := by
  decide +kernel

end Extract

end HostedGit
