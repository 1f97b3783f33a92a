/-
Unpacking an archive once more over what it has left. Where it holds no link and leaves no file locked nothing changes,
however often it is done; a link is not made again where it already is, and a locked file is not written again.
-/
import HostedGit.Proofs.Archive.Files

namespace HostedGit

namespace FileTree

variable {d p q : Path} {s t t₁ u : FileTree} {content : Octets}

/-! ## Trees between others -/

/-- A tree on its way from one to a later one: a place of it is as in the later one, or has a file as the earlier one
has it. Of a file that several entries write, the later tree has the last content; while they are written again, the
content is that of the entry which has just been reached, as it was the first time. -/
def Between (t s u : FileTree) : Prop :=
  ∀ p, u.lookup p = s.lookup p ∨ ∃ content, t.lookup p = some (.file content) ∧ u.lookup p = some (.file content)

/-- What has come to its end is as the later one. -/
theorem Between.lookup_eq (h : Between s s u) (p : Path) : u.lookup p = s.lookup p := by
  rcases h p with he | ⟨content, hs, hu⟩
  · exact he
  · rw [hs, hu]

theorem Between.directory (h : Between t s u) (later : t.Within d s) (hs : s.lookup p = some .directory) :
    u.lookup p = some .directory := by
  rcases h p with he | ⟨content, ht, -⟩
  · rw [he, hs]
  · obtain ⟨_, hf⟩ := later.file ht
    rw [hf] at hs
    cases hs

theorem Between.file (h : Between t s u) (hs : s.lookup p = some (.file content)) :
    ∃ old, u.lookup p = some (.file old) := by
  rcases h p with he | ⟨old, -, hu⟩
  · exact ⟨content, he.trans hs⟩
  · exact ⟨old, hu⟩

theorem addDirectory?_of_directory (h : t.lookup p = some .directory) : t.addDirectory? p = some t :=
  addDirectory?_eq_some_iff.mpr (.inr ⟨h, rfl⟩)

theorem addDirectory?_keeps (h : t.addDirectory? p = some t₁) {n : Node} (hn : t.lookup q = some n) :
    t₁.lookup q = some n := by
  rcases addDirectory?_eq_some_iff.mp h with ⟨⟨hnone, -⟩, rfl⟩ | ⟨-, rfl⟩
  · rw [t.lookup_put p q _ (ne_nil_of_lookup_none hnone), if_neg, hn]
    rintro rfl
    rw [hnone] at hn
    cases hn
  · exact hn

end FileTree

namespace Extract

open FileTree

variable {archive : Octets} {d p q way : Path} {e : Zip.Entry} {s t t' u : FileTree} {r : Option Unit} {n : Node}

/-! ## Ways -/

theorem openWay_keeps {start : Path} {names : List String} (h : (openWay start names).run.run t = (r, t')) :
    ∀ n, t.lookup p = some n → t'.lookup p = some n :=
  openWay_steps (R := fun t t' => ∀ n, t.lookup p = some n → t'.lookup p = some n) (fun _ _ hn => hn)
    (fun h h' n hn => h' n (h n hn)) (fun h _ hn => addDirectory?_keeps h hn) h

/-- A way that is there already is gone without a change. -/
theorem openWay_through {start : Path} {names : List String} (short : IsShort start names)
    (hd : t.IsLed (start ++ names)) (hl : ∀ target, t.lookup (start ++ names) ≠ some (.link target)) :
    (openWay start names).run.run t = (some (), t) := by
  induction names generalizing start with
  | nil => rfl
  | cons name names ih =>
    obtain ⟨fits, short⟩ := isShort_cons.mp short
    by_cases he : names = []
    · subst he
      rw [openWay_last, fits]
      rcases h : t.lookup (start ++ [name]) with _ | _ | _ | target
      · rfl
      · rfl
      · rfl
      · exact absurd h (hl target)
    rw [List.append_cons] at hd hl
    have here := hd (start ++ [name]) (List.prefix_append _ _) fun h => he (List.self_eq_append_right.mp h)
    rw [openWay_cons start name he, fits, addDirectory?_of_directory here]
    exact ih short hd hl

/-- Directories that are there already are made again without a change. -/
theorem makeWay_again {start : Path} {names : List String} (h : (makeWay start names).run.run t = (some (), t'))
    (there : u.IsOpen (start ++ names)) : (makeWay start names).run.run u = (some (), u) := by
  induction names generalizing start t with
  | nil => rfl
  | cons name names ih =>
    rw [List.append_cons] at there
    rw [makeWay_cons] at h ⊢
    rw [addDirectory?_of_directory (there _ (List.prefix_append _ _))]
    split at h
    · cases h
    · rename_i fits
      rw [if_neg fits]
      split at h
      · exact ih h there
      · cases h

theorem makeDestination_again {text : String} (h : (makeDestination text).run.run t = (some (), t'))
    (there : u.IsOpen (place text)) : (makeDestination text).run.run u = (some (), u) := by
  rw [makeDestination_run] at h ⊢
  split at h
  · cases h
  rename_i stands
  rw [if_neg stands]
  split at h
  · rename_i dot
    rw [if_pos dot]
    rcases hm : (makeWay [] (place text).dropLast).run.run t with ⟨_ | _, made⟩ <;> rw [hm] at h
    · cases h
    · rw [makeWay_again hm fun q hq => there q (hq.trans (List.dropLast_prefix _))]
      dsimp only
      rw [if_pos (there _ (List.prefix_refl _))]
  · rename_i dot
    rw [if_neg dot]
    exact makeWay_again h there

/-! ## Entries -/

/-- What comes of an entry that is no link. -/
def nodeOf (e : Zip.Entry) (content : Zip.Entry.Content) : Node :=
  if e.isDirectory then .directory else .file content.octets

/-- What an entry that is no link leaves of a tree when it has been unpacked. -/
structure Leaves (d way : Path) (n : Node) (t t' : FileTree) : Prop where
  short : IsShort d way
  led : t'.IsLed (d ++ way)
  here : t'.lookup (d ++ way) = some n
  kept : ∀ q m, q ≠ d ++ way → t.lookup q = some m → t'.lookup q = some m

theorem entry_leaves (ho : t.IsOpen d) (plain : e.isLink = false)
    (h : (entry archive d e).run.run t = (some (), t')) :
    ∃ content way, e.content? archive = some content ∧ place? e.name = some way ∧
      (e.isDirectory = false → content.isIntact = true) ∧ Leaves d way (nodeOf e content) t t' := by
  obtain ⟨content, way, t₁, hc, hp, hw, placed⟩ := entry_ok_iff.mp h
  have led := openWay_led ho (isName_of_place? hp) hw
  have leaves (here : t'.lookup (d ++ way) = some (nodeOf e content)) : Leaves d way (nodeOf e content) t t' := by
    refine ⟨openWay_short hw, fun q hq hne => ?_, here, fun q m hne hm => ?_⟩
    · rw [placed.other hne]
      exact led q hq hne
    · rw [placed.other hne]
      exact openWay_keeps hw m hm
  refine ⟨content, way, hc, hp, ?_⟩
  unfold nodeOf at leaves ⊢
  cases placed with
  | link kind => exact absurd (plain.symm.trans kind) nofun
  | directory _ named opened =>
    rw [named] at leaves ⊢
    exact ⟨nofun, leaves (by rw [lookup_openDirectory? opened, if_pos rfl, if_pos rfl])⟩
  | file _ named intact written =>
    rw [named] at leaves ⊢
    exact ⟨fun _ => intact, leaves (by rw [lookup_writeFile? written, if_pos rfl, if_neg Bool.false_ne_true])⟩

/-- One entry on: a tree between what the entry found and the end comes between what it left and the end. -/
theorem Leaves.between {u' : FileTree} (leaves : Leaves d way n t t') (h : Between t s u)
    (others : ∀ q, q ≠ d ++ way → u'.lookup q = u.lookup q)
    (here : u'.lookup (d ++ way) = s.lookup (d ++ way) ∨
      ∃ content, n = .file content ∧ u'.lookup (d ++ way) = some (.file content)) : Between t' s u' := by
  intro q
  by_cases hq : q = d ++ way
  · subst hq
    rcases here with he | ⟨content, rfl, hu⟩
    · exact .inl he
    · exact .inr ⟨content, leaves.here, hu⟩
  · rw [others q hq]
    rcases h q with he | ⟨old, ht, hu⟩
    · exact .inl he
    · exact .inr ⟨old, leaves.kept q _ hq ht, hu⟩

/-- What has been unpacked is unpacked again over what came of it later, if that is not locked. -/
theorem entry_again (ho : t.IsOpen d) (plain : e.isLink = false)
    (h : (entry archive d e).run.run t = (some (), t')) (later : t'.Within d s) (between : Between t s u)
    (free : ∀ way, place? e.name = some way → u.isLocked (d ++ way) = false) :
    ∃ u', (entry archive d e).run.run u = (some (), u') ∧ Between t' s u' ∧ ∀ p, u'.isLocked p = u.isLocked p := by
  obtain ⟨content, way, hc, hp, intact, leaves⟩ := entry_leaves ho plain h
  have free := free way hp
  have whole := (entry_within ho h).trans later
  have led : u.IsLed (d ++ way) := fun q hq hne => between.directory whole (later.directory (leaves.led q hq hne))
  have left := leaves.here
  cases named : e.isDirectory with
  | true =>
    -- the directory is there, and nothing changes
    rw [nodeOf, if_pos named] at left
    have stands := later.directory left
    have here := between.directory whole stands
    have through := openWay_through leaves.short led (by rw [here]; exact fun _ => nofun)
    have opened := openDirectory?_eq_some_iff.mpr ⟨u, addDirectory?_of_directory here, rfl⟩
    refine ⟨_, entry_ok_iff.mpr ⟨content, way, u, hc, hp, through, .directory plain named opened⟩, ?_, fun p => ?_⟩
    · exact leaves.between between (fun _ _ => rfl) (.inl (here.trans stands.symm))
    · rw [isLocked_setLocked]
      split
      · rename_i he
        rw [he, free]
      · rfl
  | false =>
    -- there is a file, perhaps with what a later entry wrote, and it gets the content that it had after this one
    rw [nodeOf, named, if_neg Bool.false_ne_true] at left
    obtain ⟨_, stands⟩ := later.file left
    have here := between.file stands
    have through := openWay_through leaves.short led fun target hl => by
      obtain ⟨_, here⟩ := here
      rw [here] at hl
      cases hl
    have written := writeFile?_eq_some_iff.mpr ⟨.inr ⟨here, free⟩, rfl (a := u.put (d ++ way) (.file content.octets))⟩
    have lookup := lookup_writeFile? written
    refine ⟨_, entry_ok_iff.mpr ⟨content, way, u, hc, hp, through, .file plain named (intact named) written⟩, ?_,
      fun p => ?_⟩
    · refine leaves.between between (fun q hq => by rw [lookup, if_neg hq]) (.inr ⟨content.octets, ?_, ?_⟩)
      · rw [nodeOf, named, if_neg Bool.false_ne_true]
      · rw [lookup, if_pos rfl]
    · rw [isLocked_put]
      split
      · rename_i he
        rw [he, free]
      · rfl

theorem entries_again {all : List Zip.Entry} (ho : t.IsOpen d) (plain : ∀ e ∈ all, e.isLink = false)
    (h : (entries archive d all).run.run t = (some (), s)) (between : Between t s u)
    (free : ∀ e ∈ all, ∀ way, place? e.name = some way → u.isLocked (d ++ way) = false) :
    ∃ u', (entries archive d all).run.run u = (some (), u') ∧ (∀ p, u'.lookup p = s.lookup p) ∧
      ∀ p, u'.isLocked p = u.isLocked p := by
  induction all generalizing t u with
  | nil =>
    cases h
    exact ⟨u, rfl, between.lookup_eq, fun _ => rfl⟩
  | cons e rest ih =>
    obtain ⟨he, hrest⟩ := List.forall_mem_cons.mp plain
    obtain ⟨here, free⟩ := List.forall_mem_cons.mp free
    rw [entries_cons] at h
    rcases first : (entry archive d e).run.run t with ⟨_ | _, t₁⟩ <;> rw [first] at h
    · cases h
    have ho₁ := (entry_within ho first).isOpen ho
    obtain ⟨u₁, hu, between, locks⟩ := entry_again ho he first (entries_within ho₁ h) between here
    obtain ⟨u₂, hu', same, locks'⟩ := ih ho₁ hrest h between fun e hm way hp => (locks _).trans (free e hm way hp)
    refine ⟨u₂, ?_, same, fun p => (locks' p).trans (locks p)⟩
    rw [entries_cons, hu]
    exact hu'

/-- A link that has been made is not made again. -/
theorem link_again {u' : FileTree} (link : e.isLink = true)
    (h : (entry archive d e).run.run t = (some (), t')) (later : t'.Within d u) :
    (entry archive d e).run.run u ≠ (some (), u') := by
  intro again
  obtain ⟨_, way, _, -, hp, -, placed⟩ := entry_ok_iff.mp h
  obtain ⟨_, way', u₁, -, hp', opened, placed'⟩ := entry_ok_iff.mp again
  cases Option.some.inj (hp.symm.trans hp')
  cases placed with
  | directory kind | file kind => exact absurd (kind.symm.trans link) nofun
  | link _ _ _ added =>
  cases placed' with
  | directory kind | file kind => exact absurd (kind.symm.trans link) nofun
  | link _ _ _ added' =>
    have made := lookup_addLink? added (d ++ way)
    rw [if_pos rfl] at made
    obtain ⟨⟨free, -⟩, -⟩ := addLink?_eq_some_iff.mp added'
    rw [openWay_keeps opened _ (later.link made)] at free
    cases free

theorem entries_again_of_link {all : List Zip.Entry} {u' : FileTree} (ho : t.IsOpen d) (he : e ∈ all)
    (link : e.isLink = true) (h : (entries archive d all).run.run t = (some (), s)) (later : s.Within d u) :
    (entries archive d all).run.run u ≠ (some (), u') := by
  intro again
  obtain ⟨before, after, t₁, t₂, h₁, h₂, h₃⟩ := entry_ok_of_mem h he
  obtain ⟨before', _, u₁, _, h₁', h₂', -⟩ := entry_ok_of_mem again he
  have ho₁ := (entries_within ho h₁).isOpen ho
  have ho₂ := (entry_within ho₁ h₂).isOpen ho₁
  have whole := (entries_within ho₂ h₃).trans later
  exact link_again link h₂ (whole.trans (entries_within (later.isOpen ((entries_within ho h).isOpen ho)) h₁')) h₂'

/-- A file that is locked is not written again. -/
theorem locked_again {old : Octets} {u' : FileTree} (plain : e.isLink = false) (named : e.isDirectory = false)
    (hp : place? e.name = some way) (there : u.lookup (d ++ way) = some (.file old))
    (locked : u.isLocked (d ++ way) = true) : (entry archive d e).run.run u ≠ (some (), u') := by
  intro again
  obtain ⟨_, _, u₁, -, hp', opened, placed⟩ := entry_ok_iff.mp again
  cases Option.some.inj (hp.symm.trans hp')
  obtain ⟨there, locked⟩ := (loosened_openWay opened).file _ _ there locked
  cases placed with
  | link kind => exact absurd (plain.symm.trans kind) nofun
  | directory _ kind => exact absurd (named.symm.trans kind) nofun
  | file _ _ _ written =>
    obtain ⟨⟨hnone, -⟩ | ⟨-, free⟩, -⟩ := writeFile?_eq_some_iff.mp written
    · rw [hnone] at there
      cases there
    · rw [free] at locked
      cases locked

theorem entries_again_of_locked {all : List Zip.Entry} {u' : FileTree} (ho : t.IsOpen d) (he : e ∈ all)
    (plain : e.isLink = false) (named : e.isDirectory = false) (hp : place? e.name = some way)
    (h : (entries archive d all).run.run t = (some (), s)) (same : ∀ p, u.lookup p = s.lookup p)
    (locked : u.isLocked (d ++ way) = true) : (entries archive d all).run.run u ≠ (some (), u') := by
  intro again
  obtain ⟨_, _, t₁, t₂, h₁, h₂, h₃⟩ := entry_ok_of_mem h he
  obtain ⟨_, _, u₁, _, h₁', h₂', -⟩ := entry_ok_of_mem again he
  have ho₁ := (entries_within ho h₁).isOpen ho
  obtain ⟨content, _, -, hp', -, leaves⟩ := entry_leaves ho₁ plain h₂
  cases Option.some.inj (hp.symm.trans hp')
  have left := leaves.here
  rw [nodeOf, named, if_neg Bool.false_ne_true] at left
  obtain ⟨_, there⟩ := (entries_within ((entry_within ho₁ h₂).isOpen ho₁) h₃).file left
  obtain ⟨there, locked⟩ := (loosened_entries h₁').file _ _ ((same _).trans there) locked
  exact locked_again plain named hp there locked h₂'

/-- What has been unpacked is not locked before the end. -/
theorem entries_unlocked {all : List Zip.Entry} (he : e ∈ all) (hp : place? e.name = some way)
    (h : (entries archive d all).run.run t = (some (), s)) : s.isLocked (d ++ way) = false := by
  obtain ⟨_, _, t₁, t₂, -, h₂, h₃⟩ := entry_ok_of_mem h he
  obtain ⟨_, _, _, -, hp', -, placed⟩ := entry_ok_iff.mp h₂
  cases Option.some.inj (hp.symm.trans hp')
  exact (loosened_entries h₃).unlocked placed.unlocked

/-! ## Archives -/

/-- An archive with an entry for a link. -/
def HoldsLink (archive : Octets) : Prop := ∃ all, Zip.read? archive = some all ∧ ∃ e ∈ all, e.isLink = true

/-- An archive that leaves a file locked: of the entries for the file, the last one that says whether its owner may
write to it says no. -/
def LeavesLocked (archive : Octets) : Prop :=
  ∃ all, Zip.read? archive = some all ∧ ∃ way, (all.filterMap (says? way)).getLast? = some true

/-- Unpacks an archive into a destination over and over, once for each name that messages call it by. -/
def repeatedly (content : Octets) (destination : String) (names : List String) (t : FileTree) : FileTree :=
  names.foldl (fun t name => ((Extract.archive name (some content) destination).run.run t).2) t

section

variable {content : Octets} {name destination : String} {count : Nat} {all : List Zip.Entry}

/-- What has been unpacked came into a directory, which is there still, and then the locks came. -/
theorem archive_ok_opened (h : (Extract.archive name (some content) destination).run.run t = (.ok count, s)) :
    ∃ all made left, Zip.read? content = some all ∧ count = all.length ∧ IsPlaced destination ∧
      (makeDestination destination).run.run s = (some (), s) ∧ made.IsOpen (place destination) ∧
      (entries content (place destination) all).run.run made = (some (), left) ∧
      s = all.foldl (settle (place destination)) left := by
  obtain ⟨all, made, hr, hd, unpacked, hc⟩ := archive_ok_iff.mp h
  have ho := (makeDestination_within hd).2 rfl
  have hs := (unpack_within ho unpacked).isOpen ho
  obtain ⟨placed, left, he, hl⟩ := unpack_ok_iff.mp unpacked
  exact ⟨all, made, left, hr, hc, placed, makeDestination_again hd hs, ho, he, hl⟩

/-- Where no entry leaves a lock, nothing that has been unpacked is locked in the end. -/
theorem settled_unlocked (free : ¬ LeavesLocked content) (hr : Zip.read? content = some all)
    (h : (entries content d all).run.run t = (some (), s)) :
    ∀ e ∈ all, ∀ way, place? e.name = some way → (all.foldl (settle d) s).isLocked (d ++ way) = false := by
  intro e he way hp
  rw [isLocked_settled]
  cases last : (all.filterMap (says? way)).getLast? with
  | none => exact entries_unlocked he hp h
  | some on =>
    cases on with
    | false => rfl
    | true => exact absurd ⟨all, hr, way, last⟩ free

/-- The same locks come again. -/
theorem settled_again {u : FileTree} (ho : (all.foldl (settle d) s).IsOpen d)
    (within : (all.foldl (settle d) s).Within d (all.foldl (settle d) u))
    (locks : ∀ p, u.isLocked p = (all.foldl (settle d) s).isLocked p) (p : Path) :
    (all.foldl (settle d) u).isLocked p = (all.foldl (settle d) s).isLocked p := by
  by_cases hp : d <+: p
  · obtain ⟨way, rfl⟩ := hp
    rw [isLocked_settled, locks, isLocked_settled]
    cases (all.filterMap (says? way)).getLast? <;> rfl
  · rcases within.outside hp with ⟨-, same⟩ | ⟨hd, hnone, -⟩
    · exact same
    · rw [ho p hd] at hnone
      cases hnone

/-- Where no link is held and no lock is left, an archive is unpacked again over what it has left, and that stays as it
was. -/
theorem archive_again_ok (plain : ¬ HoldsLink content) (free : ¬ LeavesLocked content)
    (h : (Extract.archive name (some content) destination).run.run t = (.ok count, s)) (name' : String) :
    ∃ u, (Extract.archive name' (some content) destination).run.run s = (.ok count, u) ∧ ∀ p, s.Same p u := by
  obtain ⟨all, made, left, hr, rfl, placed, again, ho, he, rfl⟩ := archive_ok_opened h
  have none (e : Zip.Entry) (hm : e ∈ all) : e.isLink = false :=
    Bool.eq_false_iff.mpr fun link => plain ⟨all, hr, e, hm, link⟩
  obtain ⟨u, unpacked, same, locks⟩ := entries_again (u := all.foldl (settle (place destination)) left) ho none he
    (fun p => .inl (lookup_settled _ _ _ p)) (settled_unlocked free hr he)
  have whole := unpack_ok_iff.mpr ⟨placed, u, unpacked, rfl⟩
  refine ⟨_, archive_ok_iff.mpr ⟨all, _, hr, again, whole, rfl⟩, fun p => ⟨?_, ?_⟩⟩
  · rw [lookup_settled, lookup_settled, same]
  · have opened := (makeDestination_within again).2 rfl
    exact settled_again opened (unpack_within opened whole) locks p

/-- Where a link is held or a lock is left, an archive is not unpacked again. -/
theorem archive_again_fails (bound : HoldsLink content ∨ LeavesLocked content)
    (h : (Extract.archive name (some content) destination).run.run t = (.ok count, s)) (name' : String) :
    ((Extract.archive name' (some content) destination).run.run s).1 = .error (.entries count destination) := by
  obtain ⟨all, made, left, hr, rfl, placed, again, ho, he, rfl⟩ := archive_ok_opened h
  have stays {u : FileTree} : (entries content (place destination) all).run.run
      (all.foldl (settle (place destination)) left) ≠ (some (), u) := by
    rcases bound with ⟨all', hr', e, hm, link⟩ | ⟨all', hr', way, last⟩ <;> cases Option.some.inj (hr.symm.trans hr')
    · have opened := (entries_within ho he).isOpen ho
      exact entries_again_of_link ho hm link he (settled_within (entries_led ho he))
    · obtain ⟨before, e, after, hall, said, -⟩ := getLast?_filterMap_eq_some_iff.mp last
      have hm : e ∈ all := by simp [hall]
      unfold says? at said
      split at said
      case isFalse => cases said
      rename_i file
      simp only [Bool.and_eq_true, Bool.not_eq_true', decide_eq_true_eq] at file
      obtain ⟨⟨plain, named⟩, hp⟩ := file
      refine entries_again_of_locked ho hm plain named hp he (lookup_settled _ _ _) ?_
      rw [isLocked_settled, last]
      rfl
  rw [archive_of_read hr, again]
  dsimp only
  rcases unpacked : (unpack content destination all).run.run (all.foldl (settle (place destination)) left) with
    ⟨_ | _, u⟩
  · rfl
  · obtain ⟨-, _, unpacked, -⟩ := unpack_ok_iff.mp unpacked
    exact absurd unpacked stays

/-- However often that has been done, it can be done once more. -/
theorem repeatedly_again (plain : ¬ HoldsLink content) (free : ¬ LeavesLocked content)
    (h : (Extract.archive name (some content) destination).run.run t = (.ok count, s)) (names : List String)
    (name' : String) :
    ∃ u, (Extract.archive name' (some content) destination).run.run (repeatedly content destination names s) =
      (.ok count, u) ∧ ∀ p, s.Same p u := by
  induction names generalizing t s name with
  | nil => exact archive_again_ok plain free h name'
  | cons second names ih =>
    obtain ⟨u, again, same⟩ := archive_again_ok plain free h second
    obtain ⟨v, last, same'⟩ := ih again
    refine ⟨v, ?_, fun p => (same p).trans (same' p)⟩
    unfold repeatedly at last ⊢
    rw [List.foldl_cons, again]
    exact last

end

/-- Over what an archive has left that was unpacked, it is unpacked again as often as one likes, and leaves everything
as it was, if it holds no link and leaves no file locked. Otherwise it is not unpacked again: the link is there already,
or the file cannot be written to. -/
theorem archive_again (content : Octets) (name destination : String) (t : FileTree) (count : Nat)
    (h : ((Extract.archive name (some content) destination).run.run t).1 = .ok count) :
    let left := ((Extract.archive name (some content) destination).run.run t).2
    (¬ HoldsLink content → ¬ LeavesLocked content → ∀ names name',
      let out := (Extract.archive name' (some content) destination).run.run
        (repeatedly content destination names left)
      out.1 = .ok count ∧ ∀ p, out.2.lookup p = left.lookup p ∧ out.2.isLocked p = left.isLocked p) ∧
    (HoldsLink content ∨ LeavesLocked content → ∀ name',
      ((Extract.archive name' (some content) destination).run.run left).1 = .error (.entries count destination)) := by
  intro left
  have first : (Extract.archive name (some content) destination).run.run t = (.ok count, left) := Prod.ext h rfl
  refine ⟨fun plain free names name' => ?_, fun bound => archive_again_fails bound first⟩
  obtain ⟨u, again, same⟩ := repeatedly_again plain free first names name'
  rw [again]
  exact ⟨rfl, same⟩

/-- Two entries for one file: the earlier one would leave it locked, the later one does not. -/
theorem archive_again_twice :
    let content : Octets := [
      80, 75, 3, 4, 20, 0, 0, 0, 0, 0, 0, 0, 33, 0, 131, 22, 220, 140, 1, 0, 0, 0, 1, 0, 0, 0, 1, 0, 0, 0, 97,
      120, 80, 75, 3, 4, 20, 0, 0, 0, 0, 0, 0, 0, 33, 0, 0, 0, 0, 0, 0, 0, 0, 0, 0, 0, 0, 0, 2, 0, 0, 0, 100,
      47, 80, 75, 3, 4, 20, 0, 0, 0, 0, 0, 0, 0, 33, 0, 98, 72, 244, 15, 2, 0, 0, 0, 2, 0, 0, 0, 8, 0, 0, 0, 46,
      47, 100, 47, 46, 46, 47, 97, 121, 122, 80, 75, 1, 2, 20, 3, 20, 0, 0, 0, 0, 0, 0, 0, 33, 0, 131, 22, 220,
      140, 1, 0, 0, 0, 1, 0, 0, 0, 1, 0, 0, 0, 0, 0, 0, 0, 0, 0, 0, 0, 36, 129, 0, 0, 0, 0, 97, 80, 75, 1, 2,
      20, 3, 20, 0, 0, 0, 0, 0, 0, 0, 33, 0, 0, 0, 0, 0, 0, 0, 0, 0, 0, 0, 0, 0, 2, 0, 0, 0, 0, 0, 0, 0, 0, 0,
      0, 0, 237, 65, 32, 0, 0, 0, 100, 47, 80, 75, 1, 2, 20, 3, 20, 0, 0, 0, 0, 0, 0, 0, 33, 0, 98, 72, 244, 15,
      2, 0, 0, 0, 2, 0, 0, 0, 8, 0, 0, 0, 0, 0, 0, 0, 0, 0, 0, 0, 164, 129, 64, 0, 0, 0, 46, 47, 100, 47, 46,
      46, 47, 97, 80, 75, 5, 6, 0, 0, 0, 0, 3, 0, 3, 0, 149, 0, 0, 0, 104, 0, 0, 0, 0, 0]
    let t := (FileTree.empty.put ["out"] .directory).put ["out", "a"] (.file [0x6F])
    let left := ((Extract.archive "a.zip" (some content) "out").run.run t).2
    let out := (Extract.archive "c.zip" (some content) "out").run.run (repeatedly content "out" ["b.zip"] left)
    ((Extract.archive "a.zip" (some content) "out").run.run t).1 = .ok 3 ∧ ¬ HoldsLink content ∧
      ¬ LeavesLocked content ∧ out.1 = .ok 3 ∧
      (∀ p, out.2.lookup p = left.lookup p ∧ out.2.isLocked p = left.isLocked p) ∧
      left.lookup ["out", "a"] = some (.file [0x79, 0x7A]) := by
  intro content t left out
  have unpacked : ((Extract.archive "a.zip" (some content) "out").run.run t).1 = .ok 3 := by
    have three : ((Extract.archive "a.zip" (some content) "out").run.run t).1.toOption = some 3 := by decide +kernel
    rcases h : ((Extract.archive "a.zip" (some content) "out").run.run t).1 with _ | _ <;>
      rw [h] at three <;> cases three
    rfl
  have plain : ¬ HoldsLink content := by
    rintro ⟨all, hr, e, hm, link⟩
    have none : ((Zip.read? content).all fun all => all.all fun e => !e.isLink) = true := by decide +kernel
    rw [hr, Option.all_some, List.all_eq_true] at none
    simpa [link] using none e hm
  have free : ¬ LeavesLocked content := by
    rintro ⟨all, hr, way, last⟩
    have known : ((Zip.read? content).all fun all => decide ((all.filterMap (says? ["a"])).getLast? ≠ some true) &&
        all.all fun e => e.isReadOnly? ≠ some true || place? e.name = some ["a"]) = true := by decide +kernel
    rw [hr, Option.all_some, Bool.and_eq_true, decide_eq_true_eq, List.all_eq_true] at known
    -- only the file says that it is to be locked, and that is not the last word
    obtain ⟨e, hm, said⟩ := List.mem_filterMap.mp (List.mem_of_getLast? last)
    unfold says? at said
    split at said
    case isFalse => cases said
    rename_i file
    have found : place? e.name = some way := of_decide_eq_true (Bool.and_eq_true_iff.mp file).2
    have same : way = ["a"] := by
      have there := known.2 e hm
      rw [said, found] at there
      simpa using there
    exact known.1 (same ▸ last)
  obtain ⟨again, -⟩ := archive_again content "a.zip" "out" t 3 unpacked
  obtain ⟨answer, same⟩ := again plain free ["b.zip"] "c.zip"
  exact ⟨unpacked, plain, free, answer, same, by decide +kernel⟩

/-- An archive of a link to `etc`, and one of a file that its owner may not write to. -/
theorem archive_again_not :
    let link : Octets := [
      80, 75, 3, 4, 20, 0, 0, 0, 0, 0, 0, 0, 33, 0, 201, 92, 181, 46, 3, 0, 0, 0, 3, 0, 0, 0, 1, 0, 0, 0, 108,
      101, 116, 99, 80, 75, 1, 2, 20, 3, 20, 0, 0, 0, 0, 0, 0, 0, 33, 0, 201, 92, 181, 46, 3, 0, 0, 0, 3, 0, 0, 0,
      1, 0, 0, 0, 0, 0, 0, 0, 0, 0, 0, 0, 255, 161, 0, 0, 0, 0, 108, 80, 75, 5, 6, 0, 0, 0, 0, 1, 0, 1, 0, 47, 0,
      0, 0, 34, 0, 0, 0, 0, 0]
    let file : Octets := [
      80, 75, 3, 4, 20, 0, 0, 0, 0, 0, 0, 0, 33, 0, 131, 22, 220, 140, 1, 0, 0, 0, 1, 0, 0, 0, 1, 0, 0, 0, 97,
      120, 80, 75, 1, 2, 20, 3, 20, 0, 0, 0, 0, 0, 0, 0, 33, 0, 131, 22, 220, 140, 1, 0, 0, 0, 1, 0, 0, 0, 1, 0,
      0, 0, 0, 0, 0, 0, 0, 0, 0, 0, 36, 129, 0, 0, 0, 0, 97, 80, 75, 5, 6, 0, 0, 0, 0, 1, 0, 1, 0, 47, 0, 0, 0,
      32, 0, 0, 0, 0, 0]
    let out (content : Octets) (t : FileTree) := (Extract.archive "a.zip" (some content) "out").run.run t
    ((out link .empty).1.toOption = some 1 ∧ (out link .empty).2.lookup ["out", "l"] = some (.link "etc") ∧
      (out link (out link .empty).2).1.toOption = none) ∧
    (out file .empty).1.toOption = some 1 ∧ (out file .empty).2.lookup ["out", "a"] = some (.file [0x78]) ∧
      (out file (out file .empty).2).1.toOption = none := by
  decide +kernel

end Extract

end HostedGit
