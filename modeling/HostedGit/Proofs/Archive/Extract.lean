/-
How unpacking comes out. An archive that cannot be read is found out before anything is touched; one that
can be is unpacked into its destination, once that is a directory. Each entry comes out by what is read of it,
and then by what is there on the way to its place.
-/
import HostedGit.Archive.Extract
import HostedGit.Proofs.Action
import HostedGit.Proofs.FileTree
import HostedGit.Proofs.Latest

namespace HostedGit.Extract

open HostedGit.Action

/-! ## Entries -/

section

variable {α β : Type}

/-- A sequence goes on with the answer of its first step, or ends where that gives up. -/
theorem bind_run (x : OptionT (StateM FileTree) α) (f : α → OptionT (StateM FileTree) β) (t : FileTree) :
    (x >>= f).run.run t = match x.run.run t with
      | (some a, t') => (f a).run.run t'
      | (none, t') => (none, t') := by
  rw [OptionT.run_bind, Option.elimM, StateT.run_bind]
  rcases x.run.run t with ⟨_ | a, t'⟩ <;> rfl

theorem get_run (t : FileTree) : (get : OptionT (StateM FileTree) FileTree).run.run t = (some t, t) := rfl

end

theorem change_run (f : FileTree → Option FileTree) (t : FileTree) :
    (change f).run.run t = match f t with
      | some t' => (some (), t')
      | none => (none, t) := by
  unfold change
  rw [bind_run, get_run]
  dsimp only
  cases f t <;> rfl

/-- The last name on a way is only looked at. -/
theorem openWay_last (start : Path) (name : String) (t : FileTree) :
    (openWay start [name]).run.run t =
      (if isTooLong start name then none
        else match t.lookup (start ++ [name]) with
          | some (.link _) => none
          | _ => some (), t) := by
  rw [openWay]
  split
  · rfl
  · rw [bind_run, get_run]
    dsimp only
    rcases t.lookup (start ++ [name]) with _ | _ | _ | _ <;> rfl

/-- The names before it are directories, or become directories. -/
theorem openWay_cons (start : Path) (name : String) {names : List String} (h : names ≠ []) (t : FileTree) :
    (openWay start (name :: names)).run.run t =
      if isTooLong start name then (none, t)
      else match t.addDirectory? (start ++ [name]) with
        | some t' => (openWay (start ++ [name]) names).run.run t'
        | none => (none, t) := by
  obtain ⟨second, rest, rfl⟩ := List.exists_cons_of_ne_nil h
  rw [openWay]
  split
  · rfl
  · rw [bind_run, get_run]
    dsimp only
    unfold FileTree.addDirectory?
    rcases hl : t.lookup (start ++ [name]) with _ | _ | _ | _
    · dsimp only
      rw [if_neg (by simp), bind_run, change_run, hl]
      dsimp only
      cases t.make? (start ++ [name]) .directory <;> rfl
    all_goals rfl

/-- What `names` lead to is a directory, or becomes one. -/
theorem makeWay_cons (start : Path) (name : String) (names : List String) (t : FileTree) :
    (makeWay start (name :: names)).run.run t =
      if isLongName name then (none, t)
      else match t.addDirectory? (start ++ [name]) with
        | some t' => (makeWay (start ++ [name]) names).run.run t'
        | none => (none, t) := by
  rw [makeWay]
  split
  · rfl
  · rw [bind_run, change_run]
    cases t.addDirectory? (start ++ [name]) <;> rfl

theorem makeDestination_run (text : String) (t : FileTree) :
    (makeDestination text).run.run t =
      if text.toList.contains '\x00' || longestPath < (Utf8.encode text.toList).length then (none, t)
      else if endsInDot text then
        match (makeWay [] (FileTree.place text).dropLast).run.run t with
        | (some (), t') => (if t'.lookup (FileTree.place text) = some .directory then some () else none, t')
        | (none, t') => (none, t')
      else (makeWay [] (FileTree.place text)).run.run t := by
  unfold makeDestination
  dsimp only
  split
  · rfl
  split
  · rw [bind_run]
    rcases (makeWay [] (FileTree.place text).dropLast).run.run t with ⟨_ | _, t'⟩
    · rfl
    · dsimp only
      rw [bind_run, get_run]
      dsimp only
      split <;> rfl
  · rfl

theorem entry_run (archive : Octets) (destination : Path) (e : Zip.Entry) (t : FileTree) :
    (entry archive destination e).run.run t =
      match e.content? archive, place? e.name with
      | some content, some way =>
        match (openWay destination way).run.run t with
        | (none, t') => (none, t')
        | (some (), t') =>
          if e.isLink then
            match content.isIntact, target? content.octets with
            | true, some target => (change (·.addLink? (destination ++ way) target)).run.run t'
            | _, _ => (none, t')
          else if e.isDirectory then (change (·.openDirectory? (destination ++ way))).run.run t'
          else
            match t'.writeFile? (destination ++ way) content.octets with
            | some t'' => (if content.isIntact then some () else none, t'')
            | none => (none, t')
      | _, _ => (none, t) := by
  unfold entry
  cases e.content? archive with
  | none => rfl
  | some content =>
    cases place? e.name with
    | none => rfl
    | some way =>
      dsimp only
      rw [bind_run]
      rcases (openWay destination way).run.run t with ⟨_ | _, t'⟩
      · rfl
      dsimp only
      cases e.isLink with
      | true =>
        cases content.isIntact with
        | false => rfl
        | true => cases target? content.octets <;> rfl
      | false =>
        cases e.isDirectory with
        | true => rfl
        | false =>
          simp only [Bool.false_eq_true, ↓reduceIte]
          rw [bind_run, change_run]
          cases t'.writeFile? (destination ++ way) content.octets with
          | none => rfl
          | some t'' => cases content.isIntact <;> rfl

theorem entries_cons (archive : Octets) (destination : Path) (e : Zip.Entry) (rest : List Zip.Entry)
    (t : FileTree) :
    (entries archive destination (e :: rest)).run.run t =
      match (entry archive destination e).run.run t with
      | (some (), t') => (entries archive destination rest).run.run t'
      | (none, t') => (none, t') := by
  rw [entries, bind_run]
  rcases (entry archive destination e).run.run t with ⟨_ | _, t'⟩ <;> rfl

/-! ## Success -/

/-- What an entry does to its place when the way there is open: it adds a link or a directory, or writes a file. -/
inductive Placed (e : Zip.Entry) (content : Zip.Entry.Content) (p : Path) (t t' : FileTree) : Prop
  | link {target : String} (kind : e.isLink = true) (intact : content.isIntact = true)
    (named : target? content.octets = some target) (added : t.addLink? p target = some t')
  | directory (kind : e.isLink = false) (named : e.isDirectory = true) (opened : t.openDirectory? p = some t')
  | file (kind : e.isLink = false) (named : e.isDirectory = false) (intact : content.isIntact = true)
    (written : t.writeFile? p content.octets = some t')

/-- An entry is unpacked exactly if it can be read, the way to its place can be opened, and its place takes it. -/
theorem entry_ok_iff {archive : Octets} {d : Path} {e : Zip.Entry} {t t' : FileTree} :
    (entry archive d e).run.run t = (some (), t') ↔
      ∃ content way t₁, e.content? archive = some content ∧ place? e.name = some way ∧
        (openWay d way).run.run t = (some (), t₁) ∧ Placed e content (d ++ way) t₁ t' := by
  constructor
  · intro h
    rw [entry_run] at h
    split at h
    case h_2 => cases h
    rename_i content way hc hp
    rcases hw : (openWay d way).run.run t with ⟨_ | _, t₁⟩ <;> rw [hw] at h
    · cases h
    refine ⟨content, way, t₁, hc, hp, hw, ?_⟩
    dsimp only at h
    split at h
    · rename_i kind
      split at h
      · rename_i target intact named
        rw [change_run] at h
        rcases added : t₁.addLink? (d ++ way) target with _ | _ <;> rw [added] at h <;> cases h
        exact .link kind intact named added
      · cases h
    rename_i kind
    split at h
    · rename_i named
      rw [change_run] at h
      rcases opened : t₁.openDirectory? (d ++ way) with _ | _ <;> rw [opened] at h <;> cases h
      exact .directory (Bool.eq_false_iff.mpr kind) named opened
    · rename_i named
      rcases written : t₁.writeFile? (d ++ way) content.octets with _ | _ <;> rw [written] at h
      · cases h
      · obtain ⟨intact, rfl⟩ := Prod.mk.inj h
        exact .file (Bool.eq_false_iff.mpr kind) (Bool.eq_false_iff.mpr named) (by simpa using intact) written
  · rintro ⟨content, way, t₁, hc, hp, hw, placed⟩
    rw [entry_run, hc, hp]
    dsimp only
    rw [hw]
    dsimp only
    cases placed with
    | link kind intact named added =>
      rw [if_pos kind, intact, named]
      dsimp only
      rw [change_run, added]
    | directory kind named opened => rw [kind, if_neg Bool.false_ne_true, if_pos named, change_run, opened]
    | file kind named intact written => rw [kind, named, written, intact]; rfl

/-- Where all entries are unpacked, each of them is. -/
theorem entry_ok_of_mem {archive : Octets} {d : Path} {all : List Zip.Entry} {e : Zip.Entry} {t t' : FileTree}
    (h : (entries archive d all).run.run t = (some (), t')) (he : e ∈ all) :
    ∃ before after t₁ t₂, (entries archive d before).run.run t = (some (), t₁) ∧
      (entry archive d e).run.run t₁ = (some (), t₂) ∧ (entries archive d after).run.run t₂ = (some (), t') := by
  induction all generalizing t with
  | nil => cases he
  | cons first rest ih =>
    rw [entries_cons] at h
    rcases hf : (entry archive d first).run.run t with ⟨_ | _, t₁⟩ <;> rw [hf] at h
    · cases h
    rcases List.mem_cons.mp he with rfl | he
    · exact ⟨[], rest, t, t₁, rfl, hf, h⟩
    · obtain ⟨before, after, t₂, t₃, hb, hm, ha⟩ := ih h he
      refine ⟨first :: before, after, t₂, t₃, ?_, hm, ha⟩
      rw [entries_cons, hf]
      exact hb

/-! ## Lengths -/

/-- A way on which no name is too long, neither by itself nor with all that is before it. -/
def IsShort (start : Path) (names : List String) : Prop :=
  (∀ name ∈ names, isLongName name = false) ∧ (names ≠ [] → FileTree.size (start ++ names) ≤ longestPath)

theorem size_append (p q : Path) : FileTree.size (p ++ q) = FileTree.size p + FileTree.size q := by
  unfold FileTree.size
  rw [List.flatMap_append, List.length_append]

theorem isShort_nil (start : Path) : IsShort start [] := ⟨List.forall_mem_nil _, fun h => absurd rfl h⟩

theorem isShort_cons {start : Path} {name : String} {names : List String} :
    IsShort start (name :: names) ↔ isTooLong start name = false ∧ IsShort (start ++ [name]) names := by
  unfold IsShort isTooLong
  rw [List.append_cons, size_append _ names, List.forall_mem_cons, Bool.or_eq_false_iff, decide_eq_false_iff_not,
    Nat.not_lt]
  constructor
  · rintro ⟨⟨hname, hnames⟩, whole⟩
    have whole := whole (List.cons_ne_nil _ _)
    exact ⟨⟨hname, Nat.le_of_add_right_le whole⟩, hnames, fun _ => whole⟩
  · rintro ⟨⟨hname, here⟩, hnames, whole⟩
    refine ⟨⟨hname, hnames⟩, fun _ => ?_⟩
    by_cases he : names = []
    · rw [he]
      exact here
    · exact whole he

/-- A way that has been opened is short. -/
theorem openWay_short {start : Path} {names : List String} {t t' : FileTree}
    (h : (openWay start names).run.run t = (some (), t')) : IsShort start names := by
  induction names generalizing start t with
  | nil => exact isShort_nil start
  | cons name names ih =>
    by_cases long : isTooLong start name = true
    · rw [openWay, if_pos long] at h
      cases h
    refine isShort_cons.mpr ⟨Bool.eq_false_iff.mpr long, ?_⟩
    by_cases he : names = []
    · rw [he]
      exact isShort_nil _
    · rw [openWay_cons start name he, if_neg long] at h
      split at h
      · exact ih h
      · cases h

/-! ## What steps can do -/

section

variable {archive : Octets} {d way : Path} {e : Zip.Entry} {t t' : FileTree} {r : Option Unit}

section

variable {R : FileTree → FileTree → Prop} (refl : ∀ t, R t t) (trans : ∀ {t t' t''}, R t t' → R t' t'' → R t t'')
  (made : ∀ {t t' p}, t.addDirectory? p = some t' → R t t')
include refl trans made

/-- On a way, one directory is made after the other, and nothing else is done. -/
theorem openWay_steps {start : Path} {names : List String} (h : (openWay start names).run.run t = (r, t')) :
    R t t' := by
  induction names generalizing start t with
  | nil =>
    cases h
    exact refl _
  | cons name names ih =>
    by_cases he : names = []
    · subst he
      rw [openWay_last] at h
      cases h
      exact refl _
    rw [openWay_cons start name he] at h
    split at h
    · cases h
      exact refl _
    split at h
    · exact trans (made ‹_›) (ih h)
    · cases h
      exact refl _

end

/-- What may become of the place of an entry. -/
inductive Changed (p : Path) (t : FileTree) : FileTree → Prop
  | same : Changed p t t
  | link {t' : FileTree} {target : String} (added : t.addLink? p target = some t') : Changed p t t'
  | directory {t' : FileTree} (opened : t.openDirectory? p = some t') : Changed p t t'
  | file {t' : FileTree} {content : Octets} (written : t.writeFile? p content = some t') : Changed p t t'

/-- However an entry ends: nothing has been done, or the way to its place has been opened, perhaps in part, and after
that perhaps its place has been changed. -/
theorem entry_cases (h : (entry archive d e).run.run t = (r, t')) :
    t' = t ∨ ∃ way r₁ t₁, place? e.name = some way ∧ (openWay d way).run.run t = (r₁, t₁) ∧
      (t' = t₁ ∨ r₁ = some () ∧ Changed (d ++ way) t₁ t') := by
  rw [entry_run] at h
  split at h
  case h_2 =>
    cases h
    exact .inl rfl
  rename_i content way _ hway
  rcases hw : (openWay d way).run.run t with ⟨_ | _, t₁⟩ <;> rw [hw] at h
  · cases h
    exact .inr ⟨way, _, _, hway, hw, .inl rfl⟩
  refine .inr ⟨way, _, t₁, hway, hw, .inr ⟨rfl, ?_⟩⟩
  dsimp only at h
  split at h
  · -- a link
    split at h
    · rename_i target _ _
      rw [change_run] at h
      rcases added : t₁.addLink? (d ++ way) target with _ | _ <;> rw [added] at h <;> cases h
      · exact .same
      · exact .link added
    · cases h
      exact .same
  split at h
  · -- a directory
    rw [change_run] at h
    rcases opened : t₁.openDirectory? (d ++ way) with _ | _ <;> rw [opened] at h <;> cases h
    · exact .same
    · exact .directory opened
  · -- a file
    rcases written : t₁.writeFile? (d ++ way) content.octets with _ | _ <;> rw [written] at h <;> cases h
    · exact .same
    · exact .file written

/-! ## Locks -/

theorem loosened_openWay {start : Path} {names : List String} (h : (openWay start names).run.run t = (r, t')) :
    t.Loosened t' := openWay_steps .refl .trans FileTree.loosened_addDirectory? h

theorem Changed.loosened {p : Path} (h : Changed p t t') : t.Loosened t' := by
  cases h with
  | same => exact .refl _
  | link added =>
    obtain ⟨vacant, rfl⟩ := FileTree.addLink?_eq_some_iff.mp added
    exact FileTree.loosened_put (.inl vacant) _
  | directory opened => exact FileTree.loosened_openDirectory? opened
  | file written =>
    obtain ⟨free, rfl⟩ := FileTree.writeFile?_eq_some_iff.mp written
    exact FileTree.loosened_put free _

/-- No entry locks anything, or changes what is locked. -/
theorem loosened_entry (h : (entry archive d e).run.run t = (r, t')) : t.Loosened t' := by
  rcases entry_cases h with rfl | ⟨_, _, t₁, -, opened, rfl | ⟨-, changed⟩⟩
  · exact .refl _
  · exact loosened_openWay opened
  · exact (loosened_openWay opened).trans changed.loosened

theorem loosened_entries {all : List Zip.Entry} (h : (entries archive d all).run.run t = (r, t')) :
    t.Loosened t' := by
  induction all generalizing t with
  | nil =>
    cases h
    exact .refl _
  | cons e rest ih =>
    rw [entries_cons] at h
    rcases he : (entry archive d e).run.run t with ⟨_ | _, t₁⟩ <;> rw [he] at h
    · cases h
      exact loosened_entry he
    · exact (loosened_entry he).trans (ih h)

/-- What has been unpacked is not locked. -/
theorem Placed.unlocked {content : Zip.Entry.Content} {p : Path} (h : Placed e content p t t') :
    t'.isLocked p = false := by
  cases h with
  | link _ _ _ added =>
    obtain ⟨-, rfl⟩ := FileTree.addLink?_eq_some_iff.mp added
    rw [FileTree.isLocked_put, if_pos rfl]
  | directory _ _ opened =>
    obtain ⟨_, -, rfl⟩ := FileTree.openDirectory?_eq_some_iff.mp opened
    rw [FileTree.isLocked_setLocked, if_pos rfl]
  | file _ _ _ written =>
    obtain ⟨-, rfl⟩ := FileTree.writeFile?_eq_some_iff.mp written
    rw [FileTree.isLocked_put, if_pos rfl]

/-- What an entry says of whether the owner of a file may not write to it, if it is an entry of that file. -/
def says? (way : Path) (e : Zip.Entry) : Option Bool :=
  if !e.isLink && !e.isDirectory && place? e.name = some way then e.isReadOnly? else none

theorem lookup_settle (d : Path) (t : FileTree) (e : Zip.Entry) (p : Path) :
    (settle d t e).lookup p = t.lookup p := by
  unfold settle
  split <;> rfl

theorem isLocked_settle (d way : Path) (t : FileTree) (e : Zip.Entry) :
    (settle d t e).isLocked (d ++ way) = (says? way e).getD (t.isLocked (d ++ way)) := by
  unfold settle says?
  rw [← Bool.not_or]
  cases e.isLink || e.isDirectory with
  | true => rfl
  | false =>
    cases e.isReadOnly? with
    | none => simp
    | some on =>
      cases place? e.name with
      | none => rfl
      | some there =>
        rw [FileTree.isLocked_setLocked]
        by_cases he : way = there
        · simp [he]
        · rw [if_neg fun h => he (List.append_cancel_left h)]
          simp [Ne.symm he]

/-- Locks change nothing that can be looked up. -/
theorem lookup_settled (d : Path) (t : FileTree) (all : List Zip.Entry) (p : Path) :
    (all.foldl (settle d) t).lookup p = t.lookup p := by
  induction all generalizing t with
  | nil => rfl
  | cons e all ih => rw [List.foldl_cons, ih, lookup_settle]

/-- Of a file that several entries are for, the last one counts that says something of it. -/
theorem isLocked_settled (d way : Path) (t : FileTree) (all : List Zip.Entry) :
    (all.foldl (settle d) t).isLocked (d ++ way) =
      (all.filterMap (says? way)).getLast?.getD (t.isLocked (d ++ way)) :=
  view_foldl (fun _ => True) (·.isLocked (d ++ way)) (says? way) (fun _ _ => trivial)
    (fun {t} _ e => isLocked_settle d way t e) all trivial

end

/-! ## Archives -/

variable {content : Octets}

theorem unpack_run (archive : Octets) (destination : String) (all : List Zip.Entry) (t : FileTree) :
    (unpack archive destination all).run.run t =
      if destination = "" || longestPath < FileTree.size (FileTree.place destination) then (none, t)
      else match (entries archive (FileTree.place destination) all).run.run t with
        | (some (), t') => (some (), all.foldl (settle (FileTree.place destination)) t')
        | (none, t') => (none, t') := by
  unfold unpack
  dsimp only
  split
  · rfl
  · rw [bind_run]
    rcases (entries archive (FileTree.place destination) all).run.run t with ⟨_ | _, t'⟩ <;> rfl

/-- A destination that entries can be unpacked into: one whose own place can be told. -/
def IsPlaced (destination : String) : Prop :=
  destination ≠ "" ∧ FileTree.size (FileTree.place destination) ≤ longestPath

theorem isPlaced_iff {destination : String} : IsPlaced destination ↔
    (destination = "" || longestPath < FileTree.size (FileTree.place destination)) = false := by
  unfold IsPlaced
  simp

/-- Everything is unpacked exactly if the destination's place can be told and all entries are unpacked; files are then
locked. -/
theorem unpack_ok_iff {archive : Octets} {destination : String} {all : List Zip.Entry} {t t' : FileTree} :
    (unpack archive destination all).run.run t = (some (), t') ↔ IsPlaced destination ∧
      ∃ t₁, (entries archive (FileTree.place destination) all).run.run t = (some (), t₁) ∧
        t' = all.foldl (settle (FileTree.place destination)) t₁ := by
  rw [unpack_run, isPlaced_iff]
  split
  · rename_i lost
    rw [lost]
    exact iff_of_false (fun h => nomatch h) fun h => nomatch h.1
  · rename_i placed
    rw [Bool.eq_false_iff.mpr placed]
    rcases (entries archive (FileTree.place destination) all).run.run t with ⟨_ | _, t₁⟩
    · refine iff_of_false (fun h => nomatch h) ?_
      rintro ⟨-, _, h, -⟩
      cases h
    · constructor
      · intro h
        cases h
        exact ⟨rfl, _, rfl, rfl⟩
      · rintro ⟨-, _, h, rfl⟩
        cases h
        rfl

theorem archive_of_missing (name destination : String) (t : FileTree) :
    (archive name none destination).run.run t = (.error (.missing name), t) := rfl

theorem archive_of_unreadable (h : Zip.read? content = none) (name destination : String) (t : FileTree) :
    (archive name (some content) destination).run.run t = (.error (.unreadable name), t) := by
  unfold archive
  simp only [h]
  rfl

theorem orThrow_run (act : OptionT (StateM FileTree) Unit) (e : ExtractError) (t : FileTree) :
    orThrow act e t = match act.run.run t with
      | (some (), t') => (.ok (), t')
      | (none, t') => (.error e, t') := by
  have got : (get : Attempt FileTree) t = (.ok t, t) := rfl
  unfold orThrow
  rw [bind_ok got]
  rcases act.run.run t with ⟨_ | _, t'⟩ <;> rfl

theorem archive_of_read {all : List Zip.Entry} (h : Zip.read? content = some all) (name destination : String)
    (t : FileTree) :
    (archive name (some content) destination).run.run t =
      match (makeDestination destination).run.run t with
      | (none, t) => (.error (.noDestination destination), t)
      | (some (), t) =>
        let out := (unpack content destination all).run.run t
        (if out.1.isSome then .ok all.length else .error (.entries all.length destination), out.2) := by
  show archive name (some content) destination t = _
  unfold archive
  simp only [h]
  have made := orThrow_run (makeDestination destination) (.noDestination destination) t
  rcases hm : (makeDestination destination).run.run t with ⟨_ | _, t₁⟩ <;> rw [hm] at made
  · exact bind_error made
  · refine (bind_ok made).trans ?_
    have unpacked := orThrow_run (unpack content destination all) (.entries all.length destination) t₁
    dsimp only
    rcases hu : (unpack content destination all).run.run t₁ with ⟨_ | _, t₂⟩ <;> rw [hu] at unpacked
    · exact bind_error unpacked
    · exact bind_ok unpacked

/-- An archive is unpacked exactly if it can be read, its destination can be made, and all of its entries are
unpacked. -/
theorem archive_ok_iff {name destination : String} {t t' : FileTree} {n : Nat} :
    (archive name (some content) destination).run.run t = (.ok n, t') ↔
      ∃ all made, Zip.read? content = some all ∧ (makeDestination destination).run.run t = (some (), made) ∧
        (unpack content destination all).run.run made = (some (), t') ∧ n = all.length := by
  cases hz : Zip.read? content with
  | none =>
    rw [archive_of_unreadable hz]
    exact iff_of_false (fun h => nomatch h) fun ⟨_, _, h, _⟩ => nomatch h
  | some all =>
    rw [archive_of_read hz]
    rcases hd : (makeDestination destination).run.run t with ⟨_ | _, made⟩
    · exact iff_of_false (fun h => nomatch (Prod.mk.inj h).1) fun ⟨_, _, _, h, _⟩ => nomatch (Prod.mk.inj h).1
    · dsimp only
      rcases he : (unpack content destination all).run.run made with ⟨_ | _, t₁⟩
      · refine iff_of_false (fun h => nomatch (Prod.mk.inj h).1) ?_
        rintro ⟨_, _, ⟨⟩, ⟨⟩, h, -⟩
        rw [he] at h
        cases h
      · constructor
        · intro h
          cases h
          exact ⟨all, made, rfl, rfl, he, rfl⟩
        · rintro ⟨_, _, ⟨⟩, ⟨⟩, h, rfl⟩
          rw [he] at h
          cases h
          rfl

/-- An archive is called unreadable exactly if it is no zip archive. -/
theorem unreadable_iff {name destination : String} {t t' : FileTree} {result : Except ExtractError Nat}
    (h : (archive name (some content) destination).run.run t = (result, t')) :
    (∃ shown, result = .error (.unreadable shown)) ↔ Zip.read? content = none := by
  cases hz : Zip.read? content with
  | none =>
    rw [archive_of_unreadable hz] at h
    cases h
    simp
  | some all =>
    rw [archive_of_read hz] at h
    suffices ∀ shown, result ≠ .error (.unreadable shown) by simpa using this
    rintro shown rfl
    split at h
    · cases h
    · obtain ⟨h, -⟩ := Prod.mk.inj h
      split at h <;> cases h

end HostedGit.Extract
