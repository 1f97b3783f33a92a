/-
Where unpacking works. Of what is there nothing is taken away but the content of files; and all that is made,
written, locked or unlocked lies below the destination, by plain names and in directories all the way, so that neither
`..` nor a link leads elsewhere. The destination itself is made together with the directories on the way to it.
-/
import HostedGit.Proofs.Archive.Extract
import HostedGit.Proofs.FileTree
import HostedGit.Proofs.Text.Cut

namespace HostedGit

namespace FileTree

variable {d p q : Path} {t t' t'' : FileTree} {n : Node}

/-! ## Work below a place -/

/-- A name of something that a directory lists: not of itself, not of the one above it, and one name only. -/
structure IsName (name : String) : Prop where
  ne_empty : name ≠ ""
  ne_dot : name ≠ "."
  ne_dots : name ≠ ".."
  slash_free : '/' ∉ name.toList
  null_free : '\x00' ∉ name.toList

/-- A place that names lead to from another place. -/
def Below (d p : Path) : Prop := ∃ way, p = d ++ way ∧ ∀ name ∈ way, IsName name

theorem below_self (d : Path) : Below d d := ⟨[], (List.append_nil d).symm, List.forall_mem_nil _⟩

theorem Below.concat {name : String} (h : Below d p) (hn : IsName name) : Below d (p ++ [name]) := by
  obtain ⟨way, rfl, hw⟩ := h
  refine ⟨way ++ [name], List.append_assoc .., fun m hm => ?_⟩
  rcases List.mem_append.mp hm with hm | hm
  · exact hw m hm
  · cases List.mem_singleton.mp hm
    exact hn

/-- A directory that only directories lead to. -/
def IsOpen (t : FileTree) (p : Path) : Prop := ∀ q, q <+: p → t.lookup q = some .directory

theorem isOpen_root (t : FileTree) : t.IsOpen [] := by
  intro q hq
  rw [List.prefix_nil.mp hq]
  rfl

theorem IsOpen.concat {name : String} (h : t.IsOpen p) (hd : t.lookup (p ++ [name]) = some .directory) :
    t.IsOpen (p ++ [name]) := by
  intro q hq
  rcases List.prefix_concat_iff.mp hq with rfl | hq
  · exact hd
  · exact h q hq

/-- What may come to a place by work below another. -/
inductive Allowed (d : Path) (t : FileTree) (p : Path) : Node → Prop
  /-- Anything, where nothing is. -/
  | make (n : Node) (hb : Below d p) (hn : t.lookup p = none) : Allowed d t p n
  /-- Another content of a file. -/
  | write {old : Octets} (new : Octets) (hb : Below d p) (hf : t.lookup p = some (.file old)) :
    Allowed d t p (.file new)
  /-- A directory that is missing on the way. -/
  | approach (hd : p <+: d) (hn : t.lookup p = none) : Allowed d t p .directory

/-- A place that only directories lead to. -/
def IsLed (t : FileTree) (p : Path) : Prop := ∀ q, q <+: p → q ≠ p → t.lookup q = some .directory

/-- A tree that has come of another by work below a place: by one change after the other, each in a directory that
only directories lead to by then. -/
inductive Within (d : Path) (t : FileTree) : FileTree → Prop
  | refl : Within d t t
  | put {t' : FileTree} {p : Path} {name : String} {n : Node} (h : Within d t t') (ho : t'.IsOpen p)
    (ha : Allowed d t' (p ++ [name]) n) : Within d t (t'.put (p ++ [name]) n)
  | setLocked {t' : FileTree} {p : Path} (on : Bool) (h : Within d t t') (hl : t'.IsLed p) (hb : Below d p) :
    Within d t (t'.setLocked p on)

theorem Within.trans (h : t.Within d t') (h' : t'.Within d t'') : t.Within d t'' := by
  induction h' with
  | refl => exact h
  | put _ ho ha ih => exact ih.put ho ha
  | setLocked on _ hl hb ih => exact ih.setLocked on hl hb

theorem lookup_put_concat (t : FileTree) (p q : Path) (name : String) (n : Node) :
    (t.put (p ++ [name]) n).lookup q = if q = p ++ [name] then some n else t.lookup q :=
  t.lookup_put _ q n (by simp)

/-- Of what is there nothing is taken away but the content of files. -/
theorem Within.kept (h : t.Within d t') (hn : t.lookup p = some n) :
    t'.lookup p = some n ∨ ∃ old new, n = .file old ∧ t'.lookup p = some (.file new) := by
  induction h with
  | refl => exact .inl hn
  | @put t₁ q name _ h ho ha ih =>
    rw [lookup_put_concat]
    by_cases he : p = q ++ [name]
    · subst he
      rw [if_pos rfl]
      -- a change replaces nothing, or a file
      cases ha with
      | make _ _ hnone | approach _ hnone => rcases ih with ih | ⟨_, _, -, ih⟩ <;> rw [hnone] at ih <;> cases ih
      | write new _ hf =>
        rcases ih with ih | ⟨old, _, rfl, -⟩
        · rw [hf] at ih
          cases ih
          exact .inr ⟨_, new, rfl, rfl⟩
        · exact .inr ⟨old, new, rfl, rfl⟩
    · rw [if_neg he]
      exact ih
  | setLocked _ _ _ _ ih => exact ih

theorem Within.directory (h : t.Within d t') (hd : t.lookup p = some .directory) : t'.lookup p = some .directory := by
  rcases h.kept hd with hn | ⟨_, _, hn, -⟩
  · exact hn
  · cases hn

theorem Within.link {target : String} (h : t.Within d t') (hl : t.lookup p = some (.link target)) :
    t'.lookup p = some (.link target) := by
  rcases h.kept hl with hn | ⟨_, _, hn, -⟩
  · exact hn
  · cases hn

theorem Within.file {old : Octets} (h : t.Within d t') (hf : t.lookup p = some (.file old)) :
    ∃ new, t'.lookup p = some (.file new) := by
  rcases h.kept hf with hn | ⟨_, new, -, hn⟩
  · exact ⟨old, hn⟩
  · exact ⟨new, hn⟩

theorem Within.isOpen (h : t.Within d t') (ho : t.IsOpen p) : t'.IsOpen p := fun q hq => h.directory (ho q hq)

theorem Within.isLed (h : t.Within d t') (hl : t.IsLed p) : t'.IsLed p := fun q hq hne => h.directory (hl q hq hne)

/-- What is not below the place is left alone, but for directories that were missing on the way to it. -/
theorem Within.outside (h : t.Within d t') (hp : ¬ d <+: p) :
    t'.lookup p = t.lookup p ∧ t'.isLocked p = t.isLocked p ∨
      p <+: d ∧ t.lookup p = none ∧ t'.lookup p = some .directory := by
  induction h with
  | refl => exact .inl ⟨rfl, rfl⟩
  | @put t₁ q name _ h ho ha ih =>
    rw [lookup_put_concat, isLocked_put]
    by_cases he : p = q ++ [name]
    · subst he
      rw [if_pos rfl]
      cases ha with
      | make _ hb | write _ hb =>
        obtain ⟨way, hw, -⟩ := hb
        exact absurd (hw ▸ List.prefix_append d way) hp
      | approach hd hnone =>
        rcases ih with ⟨ih, -⟩ | ⟨-, -, ih⟩
        · exact .inr ⟨hd, ih ▸ hnone, rfl⟩
        · rw [hnone] at ih
          cases ih
    · rw [if_neg he, if_neg he]
      exact ih
  | @setLocked t₁ q on _ _ hb ih =>
    have he : p ≠ q := by
      rintro rfl
      obtain ⟨way, hw, -⟩ := hb
      exact hp (hw ▸ List.prefix_append d way)
    rw [isLocked_setLocked, if_neg he]
    exact ih

/-! ## Directories -/

/-- A directory that is there or is made in an open place is open. -/
theorem IsOpen.addDirectory? {name : String} (h : t.IsOpen p) (place : Below d (p ++ [name]) ∨ p ++ [name] <+: d)
    (ha : t.addDirectory? (p ++ [name]) = some t') : t.Within d t' ∧ t'.IsOpen (p ++ [name]) := by
  have here := lookup_addDirectory? ha (p ++ [name])
  rw [if_pos rfl] at here
  have within : t.Within d t' := by
    rcases addDirectory?_eq_some_iff.mp ha with ⟨⟨hl, -⟩, rfl⟩ | ⟨-, rfl⟩
    · apply Within.refl.put h
      rcases place with hb | hd
      · exact .make _ hb hl
      · exact .approach hd hl
    · exact .refl
  exact ⟨within, (within.isOpen h).concat here⟩

end FileTree

namespace Extract

open FileTree

variable {d : Path} {t t' : FileTree} {r : Option Unit}

/-! ## Destinations -/

/-- The way to a place becomes directories, as far as it can be made. -/
theorem makeWay_within {start : Path} {names : List String} (h : t.IsOpen start) (hd : start ++ names <+: d)
    (hm : (makeWay start names).run.run t = (r, t')) :
    t.Within d t' ∧ (r = some () → t'.IsOpen (start ++ names)) := by
  induction names generalizing t start with
  | nil =>
    cases hm
    rw [List.append_nil]
    exact ⟨.refl, fun _ => h⟩
  | cons name names ih =>
    rw [makeWay_cons] at hm
    rw [List.append_cons] at hd ⊢
    split at hm
    · cases hm
      exact ⟨.refl, nofun⟩
    split at hm
    · rename_i made added
      obtain ⟨within, opened⟩ := h.addDirectory? (.inr ((List.prefix_append _ _).trans hd)) added
      obtain ⟨within', opened'⟩ := ih opened hd hm
      exact ⟨within.trans within', opened'⟩
    · cases hm
      exact ⟨.refl, nofun⟩

theorem makeDestination_within {text : String} (hm : (makeDestination text).run.run t = (r, t')) :
    t.Within (place text) t' ∧ (r = some () → t'.IsOpen (place text)) := by
  rw [makeDestination_run] at hm
  split at hm
  · cases hm
    exact ⟨.refl, nofun⟩
  split at hm
  · rcases hw : (makeWay [] (place text).dropLast).run.run t with ⟨_ | _, made⟩
    all_goals
      obtain ⟨within, opened⟩ := makeWay_within (d := place text) t.isOpen_root (List.dropLast_prefix _) hw
      rw [hw] at hm
      cases hm
      refine ⟨within, fun done => ?_⟩
    · cases done
    · split at done
      case isFalse => cases done
      rename_i there
      by_cases he : place text = []
      · rw [he]
        exact isOpen_root _
      · have opened := opened rfl
        rw [List.nil_append] at opened
        rw [← List.dropLast_concat_getLast he] at there ⊢
        exact opened.concat there
  · exact makeWay_within t.isOpen_root (List.prefix_refl _) hm

/-! ## Places of entries -/

theorem isName_of_resolve? {way names : List String} {parts : List (List Char)}
    (hw : ∀ name ∈ way, IsName name) (hp : ∀ part ∈ parts, '/' ∉ part ∧ '\x00' ∉ part)
    (h : resolve? way parts = some names) : ∀ name ∈ names, IsName name := by
  induction parts generalizing way with
  | nil =>
    cases h
    exact fun name hn => hw name (List.mem_reverse.mp hn)
  | cons part parts ih =>
    have hp' : ∀ part ∈ parts, '/' ∉ part ∧ '\x00' ∉ part := fun part hm => hp part (List.mem_cons_of_mem _ hm)
    unfold resolve? at h
    split at h
    · exact ih hw hp' h
    rename_i hskip
    split at h
    · -- one step up drops the last of the names so far
      cases way with
      | nil => cases h
      | cons _ way => exact ih (fun name hn => hw name (List.mem_cons_of_mem _ hn)) hp' h
    rename_i hup
    refine ih (fun name hn => ?_) hp' h
    rcases List.mem_cons.mp hn with rfl | hn
    · obtain ⟨hslash, hnull⟩ := hp part List.mem_cons_self
      simp only [not_or] at hskip
      have same {text : String} (he : String.ofList part = text) : part = text.toList := by
        rw [← he, String.toList_ofList]
      exact ⟨fun he => hskip.1 (same he), fun he => hskip.2 (same he), fun he => hup (same he),
        by rwa [String.toList_ofList], by rwa [String.toList_ofList]⟩
    · exact hw name hn

theorem isName_of_place? {name : List Char} {way : Path} (h : place? name = some way) :
    ∀ name ∈ way, IsName name := by
  unfold place? at h
  split at h
  · cases h
  rename_i hn
  simp only [not_or, List.contains_iff_mem] at hn
  refine isName_of_resolve? (List.forall_mem_nil _) (fun part hp => ?_) h
  have inside := Text.mem_of_mem_splitOnP hp
  exact ⟨fun hc => absurd (inside _ hc).2 (by decide), fun hc => hn.1 (inside _ hc).1⟩

/-! ## Entries -/

/-- The way to an entry's place is opened; the place itself is left for the entry. -/
theorem openWay_within {start : Path} {names : List String} (ho : t.IsOpen start)
    (hb : Below d start) (hn : ∀ name ∈ names, IsName name) (h : (openWay start names).run.run t = (r, t')) :
    t.Within d t' ∧ (r = some () → names ≠ [] →
      ∃ front last, names = front ++ [last] ∧ t'.IsOpen (start ++ front)) := by
  induction names generalizing t start with
  | nil =>
    cases h
    exact ⟨.refl, fun _ hne => absurd rfl hne⟩
  | cons name names ih =>
    by_cases he : names = []
    · subst he
      rw [openWay_last] at h
      obtain ⟨-, rfl⟩ := Prod.mk.inj h
      exact ⟨.refl, fun _ _ => ⟨[], name, rfl, by rwa [List.append_nil]⟩⟩
    rw [openWay_cons start name he] at h
    split at h
    · cases h
      exact ⟨.refl, nofun⟩
    split at h
    · rename_i made hm
      have hb' := hb.concat (hn name List.mem_cons_self)
      obtain ⟨within, opened⟩ := ho.addDirectory? (.inl hb') hm
      obtain ⟨within', rest⟩ := ih opened hb' (fun m hm => hn m (List.mem_cons_of_mem _ hm)) h
      refine ⟨within.trans within', fun hr _ => ?_⟩
      obtain ⟨front, last, rfl, opened⟩ := rest hr he
      exact ⟨name :: front, last, rfl, by rwa [List.append_cons]⟩
    · cases h
      exact ⟨.refl, nofun⟩

/-- Only directories lead to a place whose way has been opened. -/
theorem openWay_led {way : Path} (ho : t.IsOpen d) (hn : ∀ name ∈ way, IsName name)
    (h : (openWay d way).run.run t = (some (), t')) : t'.IsLed (d ++ way) := by
  obtain ⟨within, opened⟩ := openWay_within ho (below_self d) hn h
  intro q hq hne
  by_cases he : way = []
  · rw [he, List.append_nil] at hq
    exact within.isOpen ho q hq
  · obtain ⟨front, last, rfl, ho⟩ := opened rfl he
    rw [← List.append_assoc] at hq hne
    exact ho q ((List.prefix_concat_iff.mp hq).resolve_left hne)

/-- A change of a place that only directories lead to. -/
theorem within_of_led {p : Path} {n : Node} (hl : t.IsLed p) (hp : p ≠ []) (ha : Allowed d t p n) :
    t.Within d (t.put p n) := by
  obtain ⟨front, last, rfl⟩ : ∃ front last, p = front ++ [last] := ⟨_, _, (List.dropLast_concat_getLast hp).symm⟩
  refine Within.refl.put (fun q hq => hl q (hq.trans (List.prefix_append _ _)) ?_) ha
  rintro rfl
  have longer := hq.length_le
  rw [List.length_append, List.length_singleton] at longer
  omega

theorem within_of_vacant {p : Path} (hl : t.IsLed p) (hb : Below d p) (vacant : t.IsVacant p) (n : Node) :
    t.Within d (t.put p n) :=
  within_of_led hl (ne_nil_of_lookup_none vacant.1) (.make n hb vacant.1)

theorem Changed.within {p : Path} (h : Changed p t t') (hl : t.IsLed p) (hb : Below d p) : t.Within d t' := by
  cases h with
  | same => exact .refl
  | link added =>
    obtain ⟨vacant, rfl⟩ := addLink?_eq_some_iff.mp added
    exact within_of_vacant hl hb vacant _
  | directory opened =>
    obtain ⟨made, hm, rfl⟩ := openDirectory?_eq_some_iff.mp opened
    rcases addDirectory?_eq_some_iff.mp hm with ⟨vacant, rfl⟩ | ⟨-, rfl⟩
    · have within := within_of_vacant hl hb vacant .directory
      exact within.setLocked false (within.isLed hl) hb
    · exact Within.refl.setLocked false hl hb
  | file written =>
    obtain ⟨vacant | rewritable, rfl⟩ := writeFile?_eq_some_iff.mp written
    · exact within_of_vacant hl hb vacant _
    · obtain ⟨_, hf⟩ := rewritable.1
      exact within_of_led hl rewritable.ne_nil (.write _ hb hf)

/-- What comes to a place leaves other places alone. -/
theorem Placed.other {e : Zip.Entry} {content : Zip.Entry.Content} {p q : Path} (h : Placed e content p t t')
    (hne : q ≠ p) : t'.lookup q = t.lookup q := by
  cases h with
  | link _ _ _ added => rw [lookup_addLink? added, if_neg hne]
  | directory _ _ opened => rw [lookup_openDirectory? opened, if_neg hne]
  | file _ _ _ written => rw [lookup_writeFile? written, if_neg hne]

theorem entry_within {archive : Octets} {e : Zip.Entry} (ho : t.IsOpen d)
    (h : (entry archive d e).run.run t = (r, t')) : t.Within d t' := by
  rcases entry_cases h with rfl | ⟨way, r₁, t₁, hway, hw, ends⟩
  · exact .refl
  have hn := isName_of_place? hway
  have within := (openWay_within ho (below_self d) hn hw).1
  rcases ends with rfl | ⟨rfl, changed⟩
  · exact within
  · exact within.trans (changed.within (openWay_led ho hn hw) ⟨way, rfl, hn⟩)

theorem entries_within {archive : Octets} {all : List Zip.Entry} (ho : t.IsOpen d)
    (h : (entries archive d all).run.run t = (r, t')) : t.Within d t' := by
  induction all generalizing t with
  | nil =>
    cases h
    exact .refl
  | cons e rest ih =>
    rw [entries_cons] at h
    rcases he : (entry archive d e).run.run t with ⟨_ | _, t₁⟩ <;> rw [he] at h
    · cases h
      exact entry_within ho he
    · have within := entry_within ho he
      exact within.trans (ih (within.isOpen ho) h)

/-- Only directories lead to what has been unpacked. -/
theorem entries_led {archive : Octets} {all : List Zip.Entry} (ho : t.IsOpen d)
    (h : (entries archive d all).run.run t = (some (), t')) :
    ∀ e ∈ all, ∃ way, place? e.name = some way ∧ t'.IsLed (d ++ way) := by
  intro e he
  obtain ⟨before, after, t₁, t₂, hbefore, hentry, hafter⟩ := entry_ok_of_mem h he
  have ho₁ := (entries_within ho hbefore).isOpen ho
  have ho₂ := (entry_within ho₁ hentry).isOpen ho₁
  obtain ⟨_, way, opened, -, hway, hopened, placed⟩ := entry_ok_iff.mp hentry
  have led := openWay_led ho₁ (isName_of_place? hway) hopened
  refine ⟨way, hway, (entries_within ho₂ hafter).isLed fun q hq hne => ?_⟩
  rw [placed.other hne]
  exact led q hq hne

/-- The locks that come last lie where something has been unpacked. -/
theorem settled_within {all : List Zip.Entry} (hl : ∀ e ∈ all, ∃ way, place? e.name = some way ∧ t.IsLed (d ++ way)) :
    t.Within d (all.foldl (settle d) t) := by
  induction all generalizing t with
  | nil => exact .refl
  | cons e rest ih =>
    obtain ⟨⟨way, hway, led⟩, hl⟩ := List.forall_mem_cons.mp hl
    have within : t.Within d (settle d t e) := by
      unfold settle
      split
      · rename_i hway'
        cases hway.symm.trans hway'
        exact Within.refl.setLocked _ led ⟨way, rfl, isName_of_place? hway⟩
      · exact .refl
    refine within.trans (ih fun e he => ?_)
    obtain ⟨way, hway, led⟩ := hl e he
    exact ⟨way, hway, within.isLed led⟩

theorem unpack_within {archive : Octets} {destination : String} {all : List Zip.Entry}
    (ho : t.IsOpen (place destination)) (h : (unpack archive destination all).run.run t = (r, t')) :
    t.Within (place destination) t' := by
  rw [unpack_run] at h
  split at h
  · cases h
    exact .refl
  rcases he : (entries archive (place destination) all).run.run t with ⟨_ | _, t₁⟩ <;> rw [he] at h <;> cases h
  · exact entries_within ho he
  · exact (entries_within ho he).trans (settled_within (entries_led ho he))

/-! ## Archives -/

/-- Nothing is changed for what is no archive. -/
theorem archive_of_unopened {content : Option Octets} (h : content.bind Zip.read? = none) (name destination : String)
    (t : FileTree) : ∃ e, (archive name content destination).run.run t = (.error e, t) := by
  cases content with
  | none => exact ⟨_, archive_of_missing name destination t⟩
  | some content => exact ⟨_, archive_of_unreadable h name destination t⟩

theorem archive_within (name : String) (content : Option Octets) (destination : String) (t : FileTree) :
    t.Within (FileTree.place destination) ((archive name content destination).run.run t).2 := by
  cases hr : content.bind Zip.read? with
  | none =>
    obtain ⟨e, h⟩ := archive_of_unopened hr name destination t
    rw [h]
    exact .refl
  | some all =>
    obtain ⟨octets, rfl, hr⟩ := Option.bind_eq_some_iff.mp hr
    rw [archive_of_read hr]
    rcases hm : (makeDestination destination).run.run t with ⟨_ | _, made⟩
    · exact (makeDestination_within hm).1
    · obtain ⟨within, opened⟩ := makeDestination_within hm
      exact within.trans (unpack_within (opened rfl) rfl)

/-- Whatever an archive holds and however its unpacking ends: each change is made below the destination, by plain
names and in a directory that only directories lead to by then, so that neither `..` nor a link leads elsewhere.
Nothing outside the destination is made, written, taken away, locked or unlocked, but for directories that are missing
on the way to the destination itself. What cannot be opened as an archive leaves everything as it was. -/
theorem archive_stays_within (name : String) (content : Option Octets) (destination : String) (t : FileTree) :
    let d := FileTree.place destination
    let out := (archive name content destination).run.run t
    t.Within d out.2 ∧
      (∀ p, ¬ d <+: p → out.2.lookup p = t.lookup p ∧ out.2.isLocked p = t.isLocked p ∨
        p <+: d ∧ t.lookup p = none ∧ out.2.lookup p = some .directory) ∧
      ((∀ p, p <+: d → p ≠ d → t.lookup p ≠ none) → ∀ p, ¬ d <+: p →
        out.2.lookup p = t.lookup p ∧ out.2.isLocked p = t.isLocked p) ∧
      (content.bind Zip.read? = none → out.2 = t ∧ ∃ e, out.1 = .error e) := by
  intro d out
  have within : t.Within d out.2 := archive_within name content destination t
  refine ⟨within, fun p => within.outside, fun there p hp => ?_, fun hr => ?_⟩
  · rcases within.outside hp with same | ⟨hd, hnone, -⟩
    · exact same
    · exact absurd hnone (there p hd fun he => hp (he ▸ List.prefix_refl d))
  · obtain ⟨e, h⟩ := archive_of_unopened hr name destination t
    exact ⟨congrArg Prod.snd h, e, congrArg Prod.fst h⟩

/-- A link to a directory elsewhere, and behind it a file by way of the link; and an archive that is cut off. -/
theorem archive_stays_within_linked :
    let zip : Octets := [
      80, 75, 3, 4, 20, 0, 0, 0, 0, 0, 0, 0, 33, 0, 175, 229, 225, 8, 4, 0, 0, 0, 4, 0, 0, 0, 1, 0, 0, 0, 108,
      47, 101, 116, 99, 80, 75, 3, 4, 20, 0, 0, 0, 0, 0, 0, 0, 33, 0, 211, 255, 107, 158, 1, 0, 0, 0, 1, 0, 0,
      0, 3, 0, 0, 0, 108, 47, 120, 33, 80, 75, 1, 2, 20, 3, 20, 0, 0, 0, 0, 0, 0, 0, 33, 0, 175, 229, 225, 8, 4,
      0, 0, 0, 4, 0, 0, 0, 1, 0, 0, 0, 0, 0, 0, 0, 0, 0, 0, 0, 255, 161, 0, 0, 0, 0, 108, 80, 75, 1, 2, 20, 3,
      20, 0, 0, 0, 0, 0, 0, 0, 33, 0, 211, 255, 107, 158, 1, 0, 0, 0, 1, 0, 0, 0, 3, 0, 0, 0, 0, 0, 0, 0, 0, 0,
      0, 0, 164, 129, 35, 0, 0, 0, 108, 47, 120, 80, 75, 5, 6, 0, 0, 0, 0, 2, 0, 2, 0, 96, 0, 0, 0, 69, 0, 0, 0,
      0, 0]
    let t := FileTree.empty.put ["etc"] .directory
    let out := (archive "a.zip" (some zip) "out").run.run t
    let broken := (archive "a.zip" (some (zip.take 100)) "out").run.run t
    -- a link to `/etc`, and a file by way of that link
    (out.1.toOption.isNone ∧ out.2.lookup ["out", "l"] = some (.link "/etc")) ∧
      out.2.lookup ["etc"] = some .directory ∧ out.2.lookup ["etc", "x"] = none ∧
      broken.2 = t ∧ ∃ e, broken.1 = .error e := by
  intro zip t out broken
  have linked : out.1.toOption.isNone ∧ out.2.lookup ["out", "l"] = some (.link "/etc") := by decide +kernel
  have there : ∀ p, p <+: FileTree.place "out" → p ≠ FileTree.place "out" → t.lookup p ≠ none := by
    intro p hp hne
    rcases List.prefix_concat_iff.mp (show p <+: [] ++ ["out"] from hp) with rfl | hp
    · exact absurd rfl hne
    · rw [List.prefix_nil.mp hp]
      nofun
  have besides : ¬ FileTree.place "out" <+: ["etc"] ∧ ¬ FileTree.place "out" <+: ["etc", "x"] := by decide +kernel
  have unread : ((some (zip.take 100)).bind Zip.read?).isNone := by decide +kernel
  obtain ⟨-, -, outside, -⟩ := archive_stays_within "a.zip" (some zip) "out" t
  obtain ⟨-, -, -, unopened⟩ := archive_stays_within "a.zip" (some (zip.take 100)) "out" t
  exact ⟨linked, (outside there _ besides.1).1, (outside there _ besides.2).1,
    unopened (Option.isNone_iff_eq_none.mp unread)⟩

end Extract

end HostedGit
