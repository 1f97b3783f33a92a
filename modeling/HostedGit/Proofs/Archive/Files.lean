/-
Archives of plain files. Where nothing is in the way, every file comes to its place with exactly its content, the
directories that lead to it are made, and everything else stays as it was.
-/
import HostedGit.Proofs.Archive.Containment
import HostedGit.Proofs.Archive.Written
import Mathlib.Data.List.Infix

namespace HostedGit

namespace FileTree

variable {d p q : Path} {t t₁ t₂ : FileTree}

/-! ## Places that can be reached -/

/-- A place where a directory can be: one is there, or one can be made. -/
def IsFree (t : FileTree) (p : Path) : Prop := t.IsVacant p ∨ t.lookup p = some .directory

/-- Nothing is on the way to a place but directories, or what can become one. -/
def IsReachable (t : FileTree) (p : Path) : Prop := ∀ q, q <+: p → q ≠ p → t.IsFree q

/-- A place that a file can be written to: one can be made, or one is there. -/
def IsWritable (t : FileTree) (p : Path) : Prop := t.IsVacant p ∨ t.IsRewritable p

instance (t : FileTree) (p : Path) : Decidable (t.IsFree p) := inferInstanceAs (Decidable (_ ∨ _))

theorem IsVacant.later (h : t.IsVacant q) (loosened : t.Loosened t₁) (same : t₁.lookup q = t.lookup q) :
    t₁.IsVacant q := ⟨same.trans h.1, loosened.unlocked h.2⟩

theorem IsFree.later (h : t.IsFree q) (loosened : t.Loosened t₁) (same : t₁.lookup q = t.lookup q) : t₁.IsFree q :=
  h.imp (·.later loosened same) same.trans

theorem IsWritable.later (h : t.IsWritable q) (loosened : t.Loosened t₁) (same : t₁.lookup q = t.lookup q) :
    t₁.IsWritable q := by
  refine h.imp (·.later loosened same) fun ⟨there, free⟩ => ⟨?_, loosened.unlocked free⟩
  rwa [same]

/-- A place is as it was: what is there, and whether it is locked. -/
def Same (t : FileTree) (q : Path) (t₁ : FileTree) : Prop :=
  t₁.lookup q = t.lookup q ∧ t₁.isLocked q = t.isLocked q

theorem Same.trans (h : t.Same q t₁) (h' : t₁.Same q t₂) : t.Same q t₂ := ⟨h'.1.trans h.1, h'.2.trans h.2⟩

/-- A tree that differs from another by the directories up to a place, which are all there. -/
structure Paved (t : FileTree) (p : Path) (t₁ : FileTree) : Prop where
  isOpen : t₁.IsOpen p
  other : ∀ q, ¬ q <+: p → t.Same q t₁
  loosened : t.Loosened t₁

theorem IsOpen.paved (h : t.IsOpen p) : t.Paved p t := ⟨h, fun _ _ => ⟨rfl, rfl⟩, .refl t⟩

theorem Paved.trans (h : t.Paved p t₁) (h' : t₁.Paved q t₂) (hpq : p <+: q) : t.Paved q t₂ where
  isOpen := h'.isOpen
  other r hr := (h.other r fun hp => hr (hp.trans hpq)).trans (h'.other r hr)
  loosened := h.loosened.trans h'.loosened

theorem Paved.isFree (h : t.Paved p t₁) (hq : t.IsFree q) : t₁.IsFree q := by
  by_cases hp : q <+: p
  · exact .inr (h.isOpen q hp)
  · exact hq.later h.loosened (h.other q hp).1

theorem addDirectory?_paved {name : String} (ho : t.IsOpen p) (hf : t.IsFree (p ++ [name])) :
    ∃ t₁, t.addDirectory? (p ++ [name]) = some t₁ ∧ t.Paved (p ++ [name]) t₁ := by
  rcases hf with vacant | there
  · refine ⟨_, addDirectory?_eq_some_iff.mpr (.inl ⟨vacant, rfl⟩), fun q hq => ?_, fun q hq => ?_,
      loosened_put (.inl vacant) _⟩
    · rw [lookup_put_concat]
      split
      · rfl
      · exact ho q ((List.prefix_concat_iff.mp hq).resolve_left ‹_›)
    · have hne : q ≠ p ++ [name] := by
        rintro rfl
        exact hq (List.prefix_refl _)
      unfold Same
      rw [lookup_put_concat, isLocked_put, if_neg hne, if_neg hne]
      exact ⟨rfl, rfl⟩
  · exact ⟨t, addDirectory?_eq_some_iff.mpr (.inr ⟨there, rfl⟩), (ho.concat there).paved⟩

/-! ## Files that have come -/

/-- A tree that differs from another by files below a place and by the directories that lead to them. -/
structure Delivered (d : Path) (t : FileTree) (files : List (Path × Octets)) (t₁ : FileTree) : Prop where
  file : ∀ f ∈ files, t₁.lookup (d ++ f.1) = some (.file f.2)
  way : ∀ f ∈ files, t₁.IsLed (d ++ f.1)
  other : ∀ q, (∀ f ∈ files, ¬ q <+: d ++ f.1) → t.Same q t₁
  loosened : t.Loosened t₁

/-- Files of which none is on the way to another, and none has the place of another. -/
def Apart (files : List (Path × Octets)) : Prop := files.Pairwise fun f g => ¬ f.1 <+: g.1 ∧ ¬ g.1 <+: f.1

/-- A tree with room for files below a place. -/
structure HasRoom (t : FileTree) (d : Path) (files : List (Path × Octets)) : Prop where
  reachable : ∀ f ∈ files, t.IsReachable (d ++ f.1)
  writable : ∀ f ∈ files, t.IsWritable (d ++ f.1)

theorem Delivered.cons {f : Path × Octets} {files : List (Path × Octets)} (h : t.Delivered d [f] t₁)
    (h' : t₁.Delivered d files t₂) (apart : Apart (f :: files)) : t.Delivered d (f :: files) t₂ := by
  obtain ⟨alone, -⟩ := List.pairwise_cons.mp apart
  have kept : ∀ q, q <+: d ++ f.1 → ∀ g ∈ files, q ≠ d ++ g.1 := by
    rintro q hq g hg rfl
    exact (alone g hg).2 ((List.prefix_append_right_inj d).mp hq)
  refine ⟨fun g hg => ?_, fun g hg q hq hne => ?_, fun q hq => ?_, h.loosened.trans h'.loosened⟩
  · rcases List.mem_cons.mp hg with rfl | hg
    · rw [(h'.other _ fun g' hg' hp => (alone g' hg').1 ((List.prefix_append_right_inj d).mp hp)).1]
      exact h.file g List.mem_cons_self
    · exact h'.file g hg
  · rcases List.mem_cons.mp hg with rfl | hg
    · by_cases later : ∃ g' ∈ files, q <+: d ++ g'.1
      · obtain ⟨g', hg', hp⟩ := later
        exact h'.way g' hg' q hp (kept q hq g' hg')
      · rw [(h'.other q fun g' hg' hp => later ⟨g', hg', hp⟩).1]
        exact h.way g List.mem_cons_self q hq hne
    · exact h'.way g hg q hq hne
  · refine (h.other q fun g hg => ?_).trans (h'.other q fun g hg => hq g (List.mem_cons_of_mem f hg))
    cases List.mem_singleton.mp hg
    exact hq f List.mem_cons_self

/-- The first file leaves room for the others. -/
theorem HasRoom.tail {f : Path × Octets} {files : List (Path × Octets)} (room : t.HasRoom d (f :: files))
    (h : t.Delivered d [f] t₁) (apart : Apart (f :: files)) : t₁.HasRoom d files := by
  obtain ⟨alone, -⟩ := List.pairwise_cons.mp apart
  have other : ∀ q, ¬ q <+: d ++ f.1 → t₁.lookup q = t.lookup q := fun q hq => (h.other q fun g hg => by
    cases List.mem_singleton.mp hg
    exact hq).1
  refine ⟨fun g hg q hq hne => ?_, fun g hg => ?_⟩
  · by_cases hp : q <+: d ++ f.1
    · refine .inr (h.way f List.mem_cons_self q hp ?_)
      rintro rfl
      exact (alone g hg).1 ((List.prefix_append_right_inj d).mp hq)
    · exact (room.reachable g (List.mem_cons_of_mem f hg) q hq hne).later h.loosened (other q hp)
  · exact (room.writable g (List.mem_cons_of_mem f hg)).later h.loosened
      (other _ fun hp => (alone g hg).2 ((List.prefix_append_right_inj d).mp hp))

end FileTree

namespace Extract

open FileTree

variable {d : Path} {t : FileTree}

/-! ## Names of files -/

/-- The names that lead to a file: names of things that a directory lists, and the last one without a backslash at its
end, which would make it a directory. -/
structure IsFileWay (way : Path) : Prop where
  ne_nil : way ≠ []
  names : ∀ name ∈ way, IsName name
  last : ∀ name ∈ way.getLast?, name.toList.getLast? ≠ some '\\'

theorem resolve?_of_names {way names : List String} (hn : ∀ name ∈ names, IsName name) :
    resolve? way (names.map String.toList) = some (way.reverse ++ names) := by
  induction names generalizing way with
  | nil => rw [List.append_nil]; rfl
  | cons name names ih =>
    obtain ⟨hempty, hdot, hdots, -, -⟩ := hn name List.mem_cons_self
    have same {text : String} (h : name.toList = text.toList) : name = text := String.toList_inj.mp h
    rw [List.map_cons]
    unfold resolve?
    rw [if_neg, if_neg (fun h => hdots (same h)), String.ofList_toList,
      ih fun n hm => hn n (List.mem_cons_of_mem name hm), List.reverse_cons, List.append_assoc]
    · rfl
    · rintro (h | h)
      · exact hempty (same h)
      · exact hdot (same h)

theorem mem_intercalate_slash {parts : List (List Char)} {c : Char} (h : c ∈ ['/'].intercalate parts) :
    c = '/' ∨ ∃ part ∈ parts, c ∈ part := by
  induction parts with
  | nil => cases h
  | cons part parts ih =>
    by_cases he : parts = []
    · subst he
      rw [List.intercalate_singleton] at h
      exact .inr ⟨part, List.mem_cons_self, h⟩
    · rw [List.intercalate_cons_of_ne_nil he, List.append_assoc] at h
      rcases List.mem_append.mp h with h | h
      · exact .inr ⟨part, List.mem_cons_self, h⟩
      rcases List.mem_append.mp h with h | h
      · exact .inl (List.mem_singleton.mp h)
      · rcases ih h with rfl | ⟨other, hm, hc⟩
        · exact .inl rfl
        · exact .inr ⟨other, List.mem_cons_of_mem part hm, hc⟩

theorem head?_intercalate_slash {part : List Char} (h : part ≠ []) (parts : List (List Char)) :
    (['/'].intercalate (part :: parts)).head? = part.head? := by
  obtain ⟨c, cs, rfl⟩ := List.exists_cons_of_ne_nil h
  by_cases he : parts = []
  · rw [he, List.intercalate_singleton]
  · rw [List.intercalate_cons_of_ne_nil he]
    rfl

theorem getLast?_intercalate_slash {part : List Char} (h : part ≠ []) (parts : List (List Char)) :
    (['/'].intercalate (parts ++ [part])).getLast? = part.getLast? := by
  induction parts with
  | nil => rw [List.nil_append, List.intercalate_singleton]
  | cons other parts ih =>
    have some : part.getLast?.isSome := by simpa using h
    rw [List.cons_append, List.intercalate_cons_of_ne_nil (by simp), List.getLast?_append, ih]
    obtain ⟨c, hc⟩ := Option.isSome_iff_exists.mp some
    rw [hc]
    rfl

theorem toList_pathText (way : Path) : (pathText way).toList = ['/'].intercalate (way.map String.toList) :=
  String.toList_intercalate

/-- A place takes as many octets as its text behind a slash. -/
theorem size_eq {way : Path} (h : way ≠ []) : size way = (Utf8.encode (pathText way).toList).length + 1 := by
  have slash : Utf8.encodeChar '/' = [0x2F] := by decide
  rw [toList_pathText]
  induction way with
  | nil => exact absurd rfl h
  | cons name way ih =>
    by_cases he : way = []
    · simp [he, size, Utf8.encode, slash]
    · have split : size (name :: way) = size [name] + size way := size_append [name] way
      rw [split, ih he, List.map_cons, List.intercalate_cons_of_ne_nil (by simpa using he)]
      simp [size, Utf8.encode, slash]
      omega

/-- The text of such names stands for the place that they lead to. -/
theorem place?_of_isFileWay {way : Path} (h : IsFileWay way) : place? (pathText way).toList = some way := by
  have parts : (pathText way).toList.splitOn '/' = way.map String.toList := by
    rw [toList_pathText, List.splitOn_intercalate '/' _ (by simpa using h.ne_nil)]
    intro part hp
    obtain ⟨name, hm, rfl⟩ := List.mem_map.mp hp
    exact (h.names name hm).slash_free
  unfold place?
  rw [if_neg, parts]
  · exact resolve?_of_names h.names
  rintro (hnull | hslash)
  · rw [List.contains_iff_mem, toList_pathText] at hnull
    rcases mem_intercalate_slash hnull with he | ⟨part, hp, hc⟩
    · exact absurd he (by decide)
    · obtain ⟨name, hm, rfl⟩ := List.mem_map.mp hp
      exact (h.names name hm).null_free hc
  · obtain ⟨name, names, rfl⟩ := List.exists_cons_of_ne_nil h.ne_nil
    have hname := h.names name List.mem_cons_self
    rw [toList_pathText, List.map_cons, head?_intercalate_slash fun he => hname.ne_empty (by simpa using he)] at hslash
    exact hname.slash_free (List.mem_of_head? hslash)

/-- And it is no text of a directory. -/
theorem getLast?_of_isFileWay {way : Path} (h : IsFileWay way) :
    ((pathText way).toList.getLast?.any fun c => c = '/' || c = '\\') = false := by
  obtain ⟨front, last, rfl⟩ : ∃ front last, way = front ++ [last] :=
    ⟨_, _, (List.dropLast_concat_getLast h.ne_nil).symm⟩
  have hname := h.names last (by simp)
  have backslash := h.last last (by simp)
  rw [toList_pathText, List.map_append, List.map_singleton,
    getLast?_intercalate_slash fun he => hname.ne_empty (by simpa using he)]
  cases hc : last.toList.getLast? with
  | none => rfl
  | some c =>
    have slash : c ≠ '/' := by
      rintro rfl
      exact hname.slash_free (List.mem_of_getLast? hc)
    have backslash : c ≠ '\\' := fun he => backslash (by rw [hc, he])
    simp [slash, backslash]

/-! ## Ways and entries -/

/-- Where a place can be reached, the way to it is opened: the directories up to its own are made. -/
theorem openWay_paved {start front : List String} {last : String} (ho : t.IsOpen start)
    (short : IsShort start (front ++ [last])) (reach : t.IsReachable (start ++ (front ++ [last])))
    (free : ∀ target, t.lookup (start ++ (front ++ [last])) ≠ some (.link target)) :
    ∃ t₁, (openWay start (front ++ [last])).run.run t = (some (), t₁) ∧ t.Paved (start ++ front) t₁ := by
  induction front generalizing t start with
  | nil =>
    refine ⟨t, ?_, by simpa using ho.paved⟩
    rw [List.nil_append] at short free ⊢
    rw [openWay_last, (isShort_cons.mp short).1]
    rcases hl : t.lookup (start ++ [last]) with _ | _ | _ | target
    · rfl
    · rfl
    · rfl
    · exact absurd hl (free target)
  | cons name front ih =>
    obtain ⟨fits, short⟩ := isShort_cons.mp short
    rw [List.cons_append, List.append_cons] at reach free
    have step : start ++ [name] <+: start ++ [name] ++ (front ++ [last]) := List.prefix_append _ _
    obtain ⟨t₁, h₁, paved⟩ := addDirectory?_paved ho <| reach _ step fun he => by
      simpa using congrArg List.length he
    obtain ⟨t₂, h₂, paved'⟩ := ih paved.isOpen short (fun q hq hne => paved.isFree (reach q hq hne)) fun target => by
      rw [(paved.other _ _).1]
      · exact free target
      · intro hp
        simpa using hp.length_le
    refine ⟨t₂, ?_, ?_⟩
    · rw [List.cons_append, openWay_cons _ _ (by simp), fits, h₁]
      exact h₂
    · rw [List.append_cons]
      exact paved.trans paved' (List.prefix_append _ _)

/-- What an entry has to be for a file to come of it. -/
structure IsFileEntry (archive : Octets) (f : Path × Octets) (e : Zip.Entry) : Prop where
  name : e.name = (pathText f.1).toList
  noLink : e.isLink = false
  content : e.content? archive = some ⟨f.2, true⟩

theorem entry_delivers {archive : Octets} {f : Path × Octets} {e : Zip.Entry} (he : IsFileEntry archive f e)
    (hf : IsFileWay f.1) (short : IsShort d f.1) (ho : t.IsOpen d) (reach : t.IsReachable (d ++ f.1))
    (free : t.IsWritable (d ++ f.1)) :
    ∃ t₁, (entry archive d e).run.run t = (some (), t₁) ∧ t.Delivered d [f] t₁ := by
  obtain ⟨way, content⟩ := f
  dsimp only at hf short reach free
  have found := place?_of_isFileWay hf
  have file : e.isDirectory = false := by
    unfold Zip.Entry.isDirectory
    rw [he.name]
    exact getLast?_of_isFileWay hf
  obtain ⟨front, last, rfl⟩ : ∃ front last, way = front ++ [last] :=
    ⟨_, _, (List.dropLast_concat_getLast hf.ne_nil).symm⟩
  obtain ⟨t₁, opened, paved⟩ := openWay_paved ho short reach fun target hl => by
    rcases free with ⟨hn, -⟩ | ⟨⟨_, hn⟩, -⟩ <;> rw [hn] at hl <;> cases hl
  have apart : ¬ d ++ (front ++ [last]) <+: d ++ front := by
    intro hp
    have hl := hp.length_le
    simp only [List.length_append, List.length_singleton] at hl
    omega
  have written := writeFile?_eq_some_iff.mpr
    ⟨free.later paved.loosened (paved.other _ apart).1, rfl (a := t₁.put (d ++ (front ++ [last])) (.file content))⟩
  have unpacked := entry_ok_iff.mpr ⟨_, _, t₁, he.content, he.name ▸ found, opened, .file he.noLink file rfl written⟩
  have lookup := lookup_writeFile? written
  refine ⟨_, unpacked, fun f hf => ?_, fun f hf q hq hne => ?_, fun q hq => ?_, loosened_entry unpacked⟩
  · cases List.mem_singleton.mp hf
    rw [lookup, if_pos rfl]
  · cases List.mem_singleton.mp hf
    rw [lookup, if_neg hne]
    rw [← List.append_assoc] at hq hne
    exact paved.isOpen q ((List.prefix_concat_iff.mp hq).resolve_left hne)
  · have hq : ¬ q <+: d ++ (front ++ [last]) := hq _ List.mem_cons_self
    have hne : q ≠ d ++ (front ++ [last]) := by
      rintro rfl
      exact hq (List.prefix_refl _)
    refine (paved.other q fun hp => hq ?_).trans ⟨by rw [lookup, if_neg hne], by rw [isLocked_put, if_neg hne]⟩
    rw [← List.append_assoc]
    exact hp.trans (List.prefix_append _ _)

theorem entries_deliver {archive : Octets} {files : List (Path × Octets)} {all : List Zip.Entry}
    (he : List.Forall₂ (IsFileEntry archive) files all) (hf : ∀ f ∈ files, IsFileWay f.1 ∧ IsShort d f.1)
    (apart : Apart files) (ho : t.IsOpen d) (room : t.HasRoom d files) :
    ∃ t₁, (entries archive d all).run.run t = (some (), t₁) ∧ t.Delivered d files t₁ := by
  induction he generalizing t with
  | nil => exact ⟨t, rfl, nofun, nofun, fun _ _ => ⟨rfl, rfl⟩, .refl t⟩
  | @cons f e files all he _ ih =>
    obtain ⟨⟨hway, short⟩, hf⟩ := List.forall_mem_cons.mp hf
    obtain ⟨t₁, h₁, delivered⟩ := entry_delivers he hway short ho (room.reachable f List.mem_cons_self)
      (room.writable f List.mem_cons_self)
    have within := entry_within ho h₁
    obtain ⟨t₂, h₂, delivered'⟩ := ih hf (List.pairwise_cons.mp apart).2 (within.isOpen ho) (room.tail delivered apart)
    refine ⟨t₂, ?_, delivered.cons delivered' apart⟩
    rw [entries_cons, h₁]
    exact h₂

/-! ## Destinations -/

/-- The directories that names lead to are made where nothing else is in the way. -/
theorem makeWay_paved {start names : List String} (ho : t.IsOpen start)
    (short : ∀ name ∈ names, isLongName name = false) (free : ∀ q, q <+: start ++ names → t.IsFree q) :
    ∃ t₁, (makeWay start names).run.run t = (some (), t₁) ∧ t.Paved (start ++ names) t₁ := by
  induction names generalizing t start with
  | nil => exact ⟨t, rfl, by simpa using ho.paved⟩
  | cons name names ih =>
    obtain ⟨hname, short⟩ := List.forall_mem_cons.mp short
    rw [List.append_cons] at free ⊢
    obtain ⟨t₁, h₁, paved⟩ := addDirectory?_paved ho (free _ (List.prefix_append _ _))
    obtain ⟨t₂, h₂, paved'⟩ := ih paved.isOpen short fun q hq => paved.isFree (free q hq)
    refine ⟨t₂, ?_, paved.trans paved' (List.prefix_append _ _)⟩
    rw [makeWay_cons, hname, h₁]
    exact h₂

/-- A text for a directory that is there or can be made, and that files can be unpacked into: it is not too long,
neither as it stands nor as a place, and it is plain. -/
structure IsDestination (t : FileTree) (text : String) : Prop where
  ne_empty : text ≠ ""
  null_free : '\x00' ∉ text.toList
  short : (Utf8.encode text.toList).length ≤ longestPath
  place_short : size (place text) ≤ longestPath
  names : ∀ name ∈ place text, name ≠ ".." ∧ isLongName name = false
  free : ∀ q, q <+: place text → t.IsFree q
  /-- With a dot as its last name, a text names only a directory that is there. -/
  there : endsInDot text = true → t.lookup (place text) = some .directory

theorem makeDestination_paved {text : String} (h : IsDestination t text) :
    ∃ t₁, (makeDestination text).run.run t = (some (), t₁) ∧ t.Paved (place text) t₁ := by
  have stands : (text.toList.contains '\x00' || longestPath < (Utf8.encode text.toList).length) = false := by
    simp [h.null_free, h.short]
  have short (name : String) (hm : name ∈ place text) := (h.names name hm).2
  cases dot : endsInDot text with
  | false =>
    obtain ⟨t₁, made, paved⟩ := makeWay_paved t.isOpen_root short h.free
    refine ⟨t₁, ?_, paved⟩
    rw [makeDestination_run, stands, dot]
    exact made
  | true =>
    have front := List.dropLast_prefix (place text)
    obtain ⟨t₁, made, paved⟩ := makeWay_paved t.isOpen_root (fun name hm => short name (List.mem_of_mem_dropLast hm))
      fun q hq => h.free q (hq.trans front)
    have there := (makeWay_within (d := place text) t.isOpen_root front made).1.directory (h.there dot)
    have run : (makeDestination text).run.run t = (some (), t₁) := by
      rw [makeDestination_run, stands, dot, made]
      simp [there]
    exact ⟨t₁, run, (makeDestination_within run).2 rfl, fun q hq => paved.other q fun hp => hq (hp.trans front),
      paved.loosened⟩

/-! ## Archives -/

/-- An archive with an entry for every file. -/
def HoldsFiles (archive : Octets) (files : List (Path × Octets)) : Prop :=
  ∃ all, Zip.read? archive = some all ∧ List.Forall₂ (IsFileEntry archive) files all

/-- How a tree comes out in whose directory files are unpacked. -/
structure Unpacked (d : Path) (t : FileTree) (files : List (Path × Octets)) (t₁ : FileTree) : Prop where
  /-- Every file is there, with its content. -/
  file : ∀ f ∈ files, t₁.lookup (d ++ f.1) = some (.file f.2)
  /-- The destination and what leads to it and to the files are directories. -/
  directory : ∀ q, q <+: d ∨ (∃ f ∈ files, q <+: d ++ f.1 ∧ q ≠ d ++ f.1) → t₁.lookup q = some .directory
  /-- Everything else is as it was. -/
  other : ∀ q, ¬ q <+: d → (∀ f ∈ files, ¬ q <+: d ++ f.1) → t.Same q t₁

/-- Locks come to the files only. -/
theorem isLocked_settled_other {files : List (Path × Octets)} {archive : Octets} {all : List Zip.Entry} {q : Path}
    (he : List.Forall₂ (IsFileEntry archive) files all) (hf : ∀ f ∈ files, IsFileWay f.1) (t : FileTree)
    (hq : ∀ f ∈ files, ¬ q <+: d ++ f.1) : (all.foldl (settle d) t).isLocked q = t.isLocked q := by
  induction he generalizing t with
  | nil => rfl
  | @cons f e files all he _ ih =>
    obtain ⟨hway, hf⟩ := List.forall_mem_cons.mp hf
    obtain ⟨here, hq⟩ := List.forall_mem_cons.mp hq
    have hne : q ≠ d ++ f.1 := by
      rintro rfl
      exact here (List.prefix_refl _)
    rw [List.foldl_cons, ih hf _ hq]
    unfold settle
    rw [he.name, place?_of_isFileWay hway]
    split
    · rename_i way _ _ found
      cases found
      rw [isLocked_setLocked, if_neg hne]
    · rfl

theorem archive_unpacks {archive : Octets} {files : List (Path × Octets)} (holds : HoldsFiles archive files)
    (hf : ∀ f ∈ files, IsFileWay f.1) (apart : Apart files) (name : String) {destination : String}
    (hd : d = place destination) (ready : IsDestination t destination)
    (short : ∀ f ∈ files, IsShort d f.1) (room : t.HasRoom d files) :
    ∃ t₁, (Extract.archive name (some archive) destination).run.run t = (.ok files.length, t₁) ∧
      Unpacked d t files t₁ := by
  obtain ⟨all, hr, he⟩ := holds
  obtain ⟨t₁, made, paved⟩ := makeDestination_paved ready
  rw [← hd] at paved
  have same (f : Path × Octets) (hm : f ∈ files) : t₁.lookup (d ++ f.1) = t.lookup (d ++ f.1) := by
    refine (paved.other _ fun hp => (hf f hm).ne_nil (List.eq_nil_of_length_eq_zero ?_)).1
    have hl := hp.length_le
    rw [List.length_append] at hl
    omega
  have room : t₁.HasRoom d files := ⟨fun f hm q hq hne => paved.isFree (room.reachable f hm q hq hne),
    fun f hm => (room.writable f hm).later paved.loosened (same f hm)⟩
  obtain ⟨t₂, h₂, delivered⟩ := entries_deliver he (fun f hm => ⟨hf f hm, short f hm⟩) apart paved.isOpen room
  have unpacked : (unpack archive destination all).run.run t₁ = (some (), all.foldl (settle d) t₂) :=
    unpack_ok_iff.mpr ⟨⟨ready.ne_empty, ready.place_short⟩, t₂, hd ▸ h₂, by rw [hd]⟩
  refine ⟨_, archive_ok_iff.mpr ⟨all, t₁, hr, made, unpacked, he.length_eq⟩, ?_⟩
  have opened := (entries_within paved.isOpen h₂).isOpen paved.isOpen
  refine ⟨fun f hm => ?_, fun q hq => ?_, fun q hq hne => ?_⟩
  · rw [lookup_settled]
    exact delivered.file f hm
  · rw [lookup_settled]
    rcases hq with hq | ⟨f, hm, hq, hne⟩
    · exact opened q hq
    · exact delivered.way f hm q hq hne
  · refine ((paved.other q hq).trans (delivered.other q hne)).trans ⟨lookup_settled d t₂ all q, ?_⟩
    exact isLocked_settled_other he hf t₂ hne

/-- Names that are too long, by themselves or together, are not unpacked. -/
theorem short_of_archive_ok {archive : Octets} {files : List (Path × Octets)} (holds : HoldsFiles archive files)
    (hf : ∀ f ∈ files, IsFileWay f.1) {name destination : String} {n : Nat}
    (h : ((Extract.archive name (some archive) destination).run.run t).1 = .ok n) :
    ∀ f ∈ files, IsShort (place destination) f.1 := by
  obtain ⟨all, hr, he⟩ := holds
  obtain ⟨_, made, hr', -, unpacked, -⟩ := archive_ok_iff.mp (Prod.ext h rfl)
  cases Option.some.inj (hr.symm.trans hr')
  obtain ⟨-, _, entries, -⟩ := unpack_ok_iff.mp unpacked
  intro f hm
  obtain ⟨e, hem, file⟩ : ∃ e ∈ all, IsFileEntry archive f e := by
    clear hr hr' unpacked entries
    induction he with
    | nil => cases hm
    | @cons g e _ _ here _ ih =>
      obtain ⟨-, hf⟩ := List.forall_mem_cons.mp hf
      rcases List.mem_cons.mp hm with rfl | hm
      · exact ⟨e, List.mem_cons_self, here⟩
      · obtain ⟨e, hem, file⟩ := ih hf hm
        exact ⟨e, List.mem_cons_of_mem _ hem, file⟩
  obtain ⟨_, _, _, _, -, entry, -⟩ := entry_ok_of_mem entries hem
  obtain ⟨_, way, _, -, found, opened, -⟩ := entry_ok_iff.mp entry
  rw [file.name, place?_of_isFileWay (hf f hm)] at found
  cases found
  exact openWay_short opened

/-- Files as an archive stores them, each under the text of the names that lead to it. -/
def members (files : List (Path × Octets)) : List Zip.Member :=
  files.map fun f => ⟨(pathText f.1).toList, f.2⟩

theorem nodup_members {files : List (Path × Octets)} (hf : ∀ f ∈ files, IsFileWay f.1) (apart : Apart files) :
    ((members files).map (·.name)).Nodup := by
  unfold members
  rw [List.map_map, List.nodup_iff_pairwise_ne, List.pairwise_map]
  refine List.Pairwise.imp_of_mem (fun {f g} hm hm' h he => h.1 ?_) apart
  -- the text tells the names
  have same : some f.1 = some g.1 := by
    rw [← place?_of_isFileWay (hf f hm), ← place?_of_isFileWay (hf g hm')]
    exact congrArg place? he
  rw [Option.some.inj same]

/-- Files that are written as an archive are held by it. -/
theorem holdsFiles_written {files : List (Path × Octets)} (fits : Zip.Fits (members files))
    (hf : ∀ f ∈ files, IsFileWay f.1) (apart : Apart files) :
    HoldsFiles (Zip.written (members files)) files := by
  refine ⟨_, Zip.read?_written fits (nodup_members hf apart), ?_⟩
  have stored := Zip.stored_written fits
  unfold members at stored ⊢
  rw [List.forall₂_map_left_iff] at stored
  exact stored.imp fun f e h => ⟨h.1, h.2.1, h.2.2⟩

/-- Files of an archive, none of them on the way to another, come to their places below the destination with exactly
their contents, if no place is too long in writing and nothing is in the way: neither a file nor a link where a
directory is needed, nor anything but a file where a file is to be, nor a lock on what is changed. The directories that
they need are made, and everything else stays as it was. An archive of stored entries that has been written of the
files is such an archive. -/
theorem archive_materialises (files : List (Path × Octets)) (hf : ∀ f ∈ files, IsFileWay f.1) (apart : Apart files)
    (name destination : String) (t : FileTree) :
    (Zip.Fits (members files) → HoldsFiles (Zip.written (members files)) files) ∧
    ∀ archive, HoldsFiles archive files → IsDestination t destination →
      (∀ f ∈ files, IsShort (place destination) f.1) → t.HasRoom (place destination) files →
      let out := (Extract.archive name (some archive) destination).run.run t
      out.1 = .ok files.length ∧ Unpacked (place destination) t files out.2 := by
  refine ⟨fun fits => holdsFiles_written fits hf apart, fun archive holds ready short room => ?_⟩
  obtain ⟨t₁, h, unpacked⟩ := archive_unpacks holds hf apart name rfl ready short room
  rw [h]
  exact ⟨rfl, unpacked⟩

/-- Over a former file, beside a link and beside a file that is locked. -/
theorem archive_materialises_over :
    let files : List (Path × Octets) := [(["a", "b.txt"], [0x78]), (["a", "é"], []), (["c"], [0x79, 0x7A])]
    let old := ((FileTree.empty.put ["out"] .directory).put ["out", "c"] (.file [0x6F])).put ["out", "d"] (.link "c")
    let t := (old.put ["out", "e"] (.file [0x70])).setLocked ["out", "e"] true
    let out := (archive "a.zip" (some (Zip.written (members files))) "out").run.run t
    Zip.Fits (members files) ∧ out.1 = .ok 3 ∧ out.2.lookup ["out", "a", "b.txt"] = some (.file [0x78]) ∧
      out.2.lookup ["out", "c"] = some (.file [0x79, 0x7A]) ∧ out.2.lookup ["out", "a"] = some .directory ∧
      out.2.lookup ["out", "d"] = some (.link "c") ∧ out.2.isLocked ["out", "e"] = true := by
  intro files old t out
  have isName : ∀ f ∈ files, ∀ name ∈ f.1, name ≠ "" ∧ name ≠ "." ∧ name ≠ ".." ∧ '/' ∉ name.toList ∧
      '\x00' ∉ name.toList := by decide +kernel
  have hf : ∀ f ∈ files, IsFileWay f.1 := by
    have ends : ∀ f ∈ files, f.1 ≠ [] ∧ (f.1.getLast?.bind fun name => name.toList.getLast?) ≠ some '\\' := by
      decide +kernel
    intro f hm
    refine ⟨(ends f hm).1, fun name hn => ?_, fun name hn he => ?_⟩
    · obtain ⟨hempty, hdot, hdots, hslash, hnull⟩ := isName f hm name hn
      exact ⟨hempty, hdot, hdots, hslash, hnull⟩
    · exact (ends f hm).2 (by rw [Option.mem_def.mp hn]; exact he)
  have apart : Apart files := by
    unfold Apart
    decide +kernel
  have fits : Zip.Fits (members files) := ⟨by decide, by decide +kernel, by decide +kernel⟩
  have ready : IsDestination t "out" := by
    have free : ∀ q ∈ (place "out").inits, t.IsFree q := by decide +kernel
    exact ⟨by decide, by decide +kernel, by decide +kernel, by decide +kernel, by decide +kernel,
      fun q hq => free q ((List.mem_inits _ _).mpr hq), fun _ => by decide +kernel⟩
  have short : ∀ f ∈ files, IsShort (place "out") f.1 := by
    unfold IsShort
    decide +kernel
  have room : t.HasRoom (place "out") files := by
    have reach : ∀ f ∈ files, ∀ q ∈ (place "out" ++ f.1).inits, q ≠ place "out" ++ f.1 → t.IsFree q := by
      decide +kernel
    have there : ∀ f ∈ files, t.IsVacant (place "out" ++ f.1) ∨
        t.lookup (place "out" ++ f.1) = some (.file [0x6F]) ∧ t.isLocked (place "out" ++ f.1) = false := by
      decide +kernel
    exact ⟨fun f hm q hq => reach f hm q ((List.mem_inits _ _).mpr hq),
      fun f hm => (there f hm).imp id fun h => ⟨⟨_, h.1⟩, h.2⟩⟩
  obtain ⟨written, unpacks⟩ := archive_materialises files hf apart "a.zip" "out" t
  obtain ⟨answer, unpacked⟩ := unpacks _ (written fits) ready short room
  obtain ⟨link, -⟩ := unpacked.other ["out", "d"] (by decide +kernel) (by decide +kernel)
  obtain ⟨-, lock⟩ := unpacked.other ["out", "e"] (by decide +kernel) (by decide +kernel)
  exact ⟨fits, answer, unpacked.file (["a", "b.txt"], _) (by decide), unpacked.file (["c"], _) (by decide),
    unpacked.directory _ (.inr ⟨(["a", "é"], []), by decide, by decide +kernel⟩), link, lock⟩

/-- Names that are too long, by themselves or together, hold a null character or end in a backslash; and links and locks
that are in the way. -/
theorem archive_materialises_not :
    let out (way : Path) (t : FileTree) :=
      (archive "a.zip" (some (Zip.written (members [(way, [0x78])]))) "out").run.run t
    let a (count : Nat) := String.ofList (List.replicate count 'a')
    let former (n : Node) := (FileTree.empty.put ["out"] .directory).put ["out", "a"] n
    (out [a 256] .empty).1.toOption = none ∧ (out (List.replicate 17 (a 250)) .empty).1.toOption = none ∧
      (out ["a\x00"] .empty).1.toOption = none ∧
      (out ["a\\"] .empty).2.lookup ["out", "a\\"] = some .directory ∧
      (out ["a"] (former (.link "b"))).1.toOption = none ∧
      (out ["a"] ((former (.file [])).setLocked ["out", "a"] true)).1.toOption = none := by
  intro out a former
  have fails (way : Path) (hf : IsFileWay way) (small : size way ≤ 0x10000) (long : ¬ IsShort (place "out") way) :
      (out way .empty).1.toOption = none := by
    rw [size_eq hf.ne_nil] at small
    have fits : Zip.Fits (members [(way, [0x78])]) := Zip.fits_singleton small (by simp)
    have holds := holdsFiles_written fits (List.forall_mem_singleton.mpr hf) (List.pairwise_singleton _ _)
    cases h : (out way .empty).1 with
    | error _ => rfl
    | ok n => exact absurd (short_of_archive_ok holds (List.forall_mem_singleton.mpr hf) h _ List.mem_cons_self) long
  have letters (n : Nat) : (a n).toList = List.replicate n 'a' := String.toList_ofList
  have octets (n : Nat) : (Utf8.encode (a n).toList).length = n := by
    have one : (Utf8.encodeChar 'a').length = 1 := by decide
    rw [letters, Utf8.encode, List.length_flatMap, List.map_replicate, List.sum_replicate_nat, one, Nat.mul_one]
  have isName (n : Nat) (hn : 2 < n) : IsName (a n) := by
    have other (text : String) (ht : text.toList.length ≤ 2) : a n ≠ text := by
      rintro rfl
      rw [letters, List.length_replicate] at ht
      omega
    have letter (c : Char) (hc : c ∈ (a n).toList) : c = 'a' := List.eq_of_mem_replicate (letters n ▸ hc)
    exact ⟨other "" (by decide), other "." (by decide), other ".." (by decide),
      fun hc => absurd (letter _ hc) (by decide), fun hc => absurd (letter _ hc) (by decide)⟩
  have isFileWay (count n : Nat) (hc : count ≠ 0) (hn : 2 < n) : IsFileWay (List.replicate count (a n)) := by
    refine ⟨by simpa using hc, fun name hm => ?_, fun name hm ends => ?_⟩
    · rw [List.eq_of_mem_replicate hm]
      exact isName n hn
    · rw [List.eq_of_mem_replicate (List.mem_of_getLast? hm), letters] at ends
      exact absurd (List.eq_of_mem_replicate (List.mem_of_getLast? ends)) (by decide)
  have size_replicate (count n : Nat) : size (List.replicate count (a n)) = count * (n + 1) := by
    have one : (Utf8.encode ('/' :: (a n).toList)).length = n + 1 := congrArg (· + 1) (octets n)
    rw [size, List.length_flatMap, List.map_replicate, one, List.sum_replicate_nat]
  refine ⟨fails (List.replicate 1 (a 256)) (isFileWay 1 256 (by decide) (by decide)) ?_ fun short => ?_,
    fails _ (isFileWay 17 250 (by decide) (by decide)) ?_ fun short => ?_, by decide +kernel⟩
  · rw [size_replicate]
    decide
  · have fits := short.1 (a 256) List.mem_cons_self
    rw [isLongName, octets] at fits
    exact absurd fits (by decide)
  · rw [size_replicate]
    decide
  · have fits := short.2 (by decide)
    rw [size_append, size_replicate] at fits
    exact absurd (Nat.le_of_add_left_le fits) (by decide)

end Extract

end HostedGit
