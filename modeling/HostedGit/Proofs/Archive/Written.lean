/-
Zip archives in writing. Files are stored one behind the other, each behind a header; the directory follows, with
a record for each file, and the end record comes last. What is written in this way is read back as it was.
-/
import HostedGit.Archive.Zip
import HostedGit.Proofs.Text.Utf8
import Mathlib.Algebra.GroupWithZero.Nat
import Mathlib.Data.List.Forall2

namespace HostedGit

namespace Octets

variable {a b bs mark : Octets} {p k n s v : Nat} {fs : List (Nat × Nat)}

/-! ## Parts of rows -/

theorem part_of_prefix (h : a <+: bs.drop p) : bs.part p a.length = a := (List.prefix_iff_eq_take.mp h).symm

theorem prefix_left (h : a ++ b <+: bs.drop p) : a <+: bs.drop p := (List.prefix_append a b).trans h

theorem prefix_right (h : a ++ b <+: bs.drop p) : b <+: bs.drop (p + a.length) := by
  obtain ⟨rest, h⟩ := h
  rw [← List.drop_drop, ← h, List.append_assoc, List.drop_left]
  exact List.prefix_append b rest

theorem end_le (h : a <+: bs.drop p) (ha : a ≠ []) : p + a.length ≤ bs.length := by
  have hl := h.length_le
  have pos := List.length_pos_iff.mpr ha
  rw [List.length_drop] at hl
  omega

/-! ## Records of numbers -/

/-- Numbers one behind the other, each in its number of octets. -/
def fields (fs : List (Nat × Nat)) : Octets := fs.flatMap fun f => ofNat f.1 f.2

theorem length_fields (fs : List (Nat × Nat)) : (fields fs).length = (fs.map (·.1)).sum := by
  unfold fields
  rw [List.length_flatMap]
  simp only [length_ofNat]

theorem number_fields_skip (h : s ≤ k) : (fields ((s, v) :: fs)).number k n = (fields fs).number (k - s) n := by
  unfold number part fields
  rw [List.flatMap_cons, List.drop_append, List.drop_eq_nil_of_le (by rwa [length_ofNat]), length_ofNat,
    List.nil_append]

theorem number_fields_here (h : v < 256 ^ s) : (fields ((s, v) :: fs)).number 0 s = v := by
  unfold number part fields
  rw [List.flatMap_cons, List.drop_zero, List.take_append_of_le_length (Nat.le_of_eq (length_ofNat s v).symm),
    List.take_of_length_le (Nat.le_of_eq (length_ofNat s v)), toNat_ofNat]
  exact Nat.mod_eq_of_lt h

/-! ## Places of marks -/

theorem le_of_mem_places (h : k ∈ places mark s bs) : s ≤ k := by
  induction bs generalizing s with
  | nil => cases h
  | cons b bs ih =>
    unfold places at h
    split at h
    · rcases List.mem_cons.mp h with rfl | h
      · exact Nat.le_refl _
      · exact Nat.le_of_succ_le (ih h)
    · exact Nat.le_of_succ_le (ih h)

theorem places_append (mark : Octets) (s : Nat) (a b : Octets) :
    ∃ before, places mark s (a ++ b) = before ++ places mark (s + a.length) b := by
  induction a generalizing s with
  | nil => exact ⟨[], rfl⟩
  | cons x a ih =>
    obtain ⟨before, h⟩ := ih (s + 1)
    rw [List.cons_append, places, h, List.length_cons, Nat.add_right_comm, ← Nat.add_assoc]
    split
    · exact ⟨s :: before, rfl⟩
    · exact ⟨before, rfl⟩

theorem places_of_prefix (hm : mark ≠ []) (h : mark <+: bs) :
    ∃ later, places mark s bs = s :: later ∧ ∀ k ∈ later, s < k := by
  cases bs with
  | nil => exact absurd (List.prefix_nil.mp h) hm
  | cons b bs =>
    rw [places, if_pos (List.isPrefixOf_iff_prefix.mpr h)]
    exact ⟨_, rfl, fun k hk => le_of_mem_places hk⟩

end Octets

namespace Zip

open Octets

/-! ## Writing -/

/-- A file as an archive stores it: its name and its content. -/
structure Member where
  name : List Char
  content : Octets

namespace Member

/-- What the header and the directory say alike of a file, before other numbers: it is stored as it is, and its name
is UTF-8. -/
def common (m : Member) (more : List (Nat × Nat)) : List (Nat × Nat) :=
  (2, 20) :: (2, 0x800) :: (2, 0) :: (2, 0) :: (2, 0x21) :: (4, (Crc32.checksum m.content).toNat) ::
    (4, m.content.length) :: (4, m.content.length) :: (2, (Utf8.encode m.name).length) :: (2, 0) :: more

/-- The header before a file's name and content. -/
def header (m : Member) : Octets := fields ((4, 0x04034B50) :: m.common [])

/-- A file behind its header. -/
def stored (m : Member) : Octets := m.header ++ (Utf8.encode m.name ++ m.content)

/-- What the directory says of a file whose header is at a place. -/
def facts (m : Member) (place : Nat) : Octets :=
  fields ((4, 0x02014B50) :: (1, 20) :: (1, 3) :: m.common [(2, 0), (2, 0), (2, 0), (4, 0x81A40000), (4, place)])

/-- The record of such a file. -/
def record (m : Member) (place : Nat) : Octets := m.facts place ++ Utf8.encode m.name

/-- What is read of it. -/
def entry (m : Member) (place : Nat) : Entry where
  name := m.name
  system := 3
  flags := 0x800
  method := 0
  checksum := (Crc32.checksum m.content).toNat
  size := m.content.length
  attributes := 0x81A40000
  place := place

end Member

/-- The records of files that are stored one behind the other from a place on. -/
def directory (place : Nat) : List Member → Octets
  | [] => []
  | m :: ms => m.record place ++ directory (place + m.stored.length) ms

/-- The entries of those files. -/
def entriesOf (place : Nat) : List Member → List Entry
  | [] => []
  | m :: ms => m.entry place :: entriesOf (place + m.stored.length) ms

/-- Files one behind the other. -/
def contents (ms : List Member) : Octets := ms.flatMap Member.stored

/-- The record at the end of an archive. -/
def ending (ms : List Member) : Octets :=
  fields [(4, 0x06054B50), (2, 0), (2, 0), (2, ms.length), (2, ms.length), (4, (directory 0 ms).length),
    (4, (contents ms).length), (2, 0)]

/-- An archive of files. -/
def written (ms : List Member) : Octets := contents ms ++ (directory 0 ms ++ ending ms)

/-- Files that an archive can hold: not too many, no name too long, and not too much of it all. -/
structure Fits (ms : List Member) : Prop where
  count : ms.length < 0xFFFF
  names : ∀ m ∈ ms, (Utf8.encode m.name).length < 0x10000
  size : (written ms).length < 0xFFFFFFFF

/-! ## Reading back -/

theorem record?_of_fields {archive : Octets} {v : Nat} {fs : List (Nat × Nat)} {place : Nat}
    (h : fields ((4, v) :: fs) <+: archive.drop place) (mark : Octets) (hm : ofNat 4 v = mark) (size : Nat)
    (hs : 4 + (fs.map (·.1)).sum = size) :
    record? archive mark place size = some (fields ((4, v) :: fs)) := by
  have hl : (fields ((4, v) :: fs)).length = size := by rw [length_fields, ← hs]; rfl
  unfold record?
  rw [← hl, part_of_prefix h]
  refine if_pos ⟨rfl, List.isPrefixOf_iff_prefix.mpr ?_⟩
  rw [← hm]
  exact List.prefix_append _ _

section

variable {archive : Octets} {m : Member} {place p : Nat}

theorem length_header (m : Member) : m.header.length = 30 := by
  unfold Member.header
  rw [length_fields]
  simp [Member.common]

theorem length_stored (m : Member) :
    m.stored.length = 30 + ((Utf8.encode m.name).length + m.content.length) := by
  unfold Member.stored
  rw [List.length_append, length_header, List.length_append]

theorem length_facts (m : Member) (place : Nat) : (m.facts place).length = 46 := by
  unfold Member.facts
  rw [length_fields]
  simp [Member.common]

theorem length_record (m : Member) (place : Nat) :
    (m.record place).length = 46 + (Utf8.encode m.name).length := by
  unfold Member.record
  rw [List.length_append, length_facts]

theorem length_contents_cons (m : Member) (ms : List Member) :
    (contents (m :: ms)).length = m.stored.length + (contents ms).length := by
  unfold contents
  rw [List.flatMap_cons, List.length_append]

/-- A file's record is read as its entry, and the next one comes behind it. -/
theorem read?_record (h : m.record place <+: archive.drop p) (hn : (Utf8.encode m.name).length < 0x10000)
    (hc : m.content.length < 0xFFFFFFFF) (hp : place < 0xFFFFFFFF) :
    Entry.read? archive 0 p = some (m.entry place, p + (m.record place).length) := by
  obtain ⟨hc, hp, hn⟩ : m.content.length < 256 ^ 4 ∧ place < 256 ^ 4 ∧ (Utf8.encode m.name).length < 256 ^ 2 := by
    omega
  have check : (Crc32.checksum m.content).toNat < 256 ^ 4 := (Crc32.checksum m.content).toNat_lt
  have head := record?_of_fields (prefix_left h) directoryMark (by decide) 46 (by simp [Member.common])
  have name : archive.part (p + 46) (Utf8.encode m.name).length = Utf8.encode m.name := by
    have here := part_of_prefix (prefix_right h)
    rwa [length_facts] at here
  have within := end_le h (List.ne_nil_of_length_pos (by rw [length_record]; omega))
  rw [length_record] at within ⊢
  unfold Entry.read?
  rw [head]
  simp (disch := first | assumption | decide) only [Member.common, Option.bind_eq_bind, Option.bind_some,
    number_fields_skip, number_fields_here, Nat.reduceSub]
  rw [if_neg (by omega), name, nameOf, if_pos (by decide), Utf8.decodeLossy_encode, Nat.zero_add, Nat.add_assoc p]
  rfl

/-- A file's content is read at its header. -/
theorem content?_stored (h : m.stored <+: archive.drop place) (hn : (Utf8.encode m.name).length < 0x10000) :
    (m.entry place).content? archive = some ⟨m.content, true⟩ := by
  have hn : (Utf8.encode m.name).length < 256 ^ 2 := by omega
  have head := record?_of_fields (prefix_left h) contentMark (by decide) 30 (by simp [Member.common])
  have content : archive.part (place + 30 + (Utf8.encode m.name).length) m.content.length = m.content := by
    have here := part_of_prefix (prefix_right (prefix_right h))
    rwa [length_header] at here
  unfold Entry.content?
  rw [if_neg (by simp [Entry.isEncrypted, Member.entry])]
  show (do
    let r ← record? archive contentMark place 30
    let stored := archive.part (place + 30 + r.number 26 2 + r.number 28 2) m.content.length
    let c ← Entry.expand? 0 stored
    return (⟨c.octets, c.isIntact && (Crc32.checksum c.octets).toNat = (Crc32.checksum m.content).toNat⟩ :
      Entry.Content)) = _
  rw [head]
  simp (disch := first | assumption | decide) only [Member.common, Option.bind_eq_bind, Option.bind_some,
    number_fields_skip, number_fields_here, Nat.reduceSub]
  rw [Nat.add_zero, content]
  simp [Entry.expand?]

/-- The directory is read as the entries of its records. -/
theorem entries?_directory {ms : List Member} (h : directory place ms <+: archive.drop p)
    (hn : ∀ m ∈ ms, (Utf8.encode m.name).length < 0x10000) (hp : place + (contents ms).length < 0xFFFFFFFF) :
    entries? archive 0 ms.length p = some (entriesOf place ms) := by
  induction ms generalizing place p with
  | nil => rfl
  | cons m ms ih =>
    have size := length_contents_cons m ms
    have inside := length_stored m
    have first := read?_record (prefix_left h) (hn m List.mem_cons_self) (by omega) (by omega)
    have rest := ih (prefix_right h) (fun m' hm => hn m' (List.mem_cons_of_mem m hm)) (by omega)
    rw [List.length_cons, entries?, first]
    dsimp only [Option.bind_eq_bind, Option.bind_some]
    rw [rest]
    rfl

end

section

variable {ms : List Member}

theorem names_entriesOf (place : Nat) (ms : List Member) : (entriesOf place ms).map (·.name) = ms.map (·.name) := by
  induction ms generalizing place with
  | nil => rfl
  | cons m ms ih => rw [entriesOf, List.map_cons, List.map_cons, ih]; rfl

theorem place_lt_of_mem_entriesOf {e : Entry} {place : Nat} (h : e ∈ entriesOf place ms) :
    e.place < place + (contents ms).length := by
  induction ms generalizing place with
  | nil => cases h
  | cons m ms ih =>
    have size := length_stored m
    rw [length_contents_cons]
    rcases List.mem_cons.mp h with rfl | h
    · show place < _
      omega
    · have := ih h
      omega

/-- Entries of different names are all added. -/
theorem foldl_addEntry {entries done : List Entry} (h : ((done ++ entries).map (·.name)).Nodup) :
    entries.foldl addEntry done = done ++ entries := by
  induction entries generalizing done with
  | nil => rw [List.foldl_nil, List.append_nil]
  | cons e entries ih =>
    have new : done.any (fun old => old.name = e.name) = false := by
      rw [List.map_append, List.map_cons, List.nodup_append] at h
      refine List.any_eq_false.mpr fun old hm => ?_
      simpa using h.2.2 old.name (List.mem_map_of_mem hm) e.name List.mem_cons_self
    rw [List.foldl_cons, addEntry, if_neg (by simp [new]), ih, List.append_assoc, List.singleton_append]
    rwa [List.append_assoc, List.singleton_append]

theorem directory_ne_nil (place : Nat) (h : ms ≠ []) : directoryMark <+: directory place ms := by
  obtain ⟨m, ms, rfl⟩ := List.exists_cons_of_ne_nil h
  exact ⟨_, rfl⟩

theorem length_ending (ms : List Member) : (ending ms).length = 22 := by
  unfold ending
  rw [length_fields]
  rfl

theorem length_written (ms : List Member) :
    (written ms).length = (contents ms).length + ((directory 0 ms).length + 22) := by
  unfold written
  rw [List.length_append, List.length_append, length_ending]

/-- One file fits if neither its name nor its content is too long. -/
theorem fits_singleton {m : Member} (name : (Utf8.encode m.name).length < 0x10000)
    (content : m.content.length ≤ 0xFFF00000) : Fits [m] := by
  refine ⟨by simp, List.forall_mem_singleton.mpr name, ?_⟩
  rw [length_written, length_contents_cons, length_stored, directory, directory, List.append_nil, length_record]
  have none : (contents []).length = 0 := rfl
  omega

/-- The directory, and the end record behind it, stand behind the files. -/
theorem written_drop (ms : List Member) : (written ms).drop (contents ms).length = directory 0 ms ++ ending ms :=
  List.drop_left

/-- The end record is read as it was written. -/
theorem ending_read (fits : Fits ms) :
    EndRecord.read? (written ms) ((contents ms).length + (directory 0 ms).length) =
      some ⟨(contents ms).length + (directory 0 ms).length, ms.length, (contents ms).length⟩ := by
  have size := length_written ms
  have fitting := fits.size
  have counted := fits.count
  obtain ⟨count, start, length⟩ : ms.length < 256 ^ 2 ∧ (contents ms).length < 256 ^ 4 ∧
      (directory 0 ms).length < 256 ^ 4 := by omega
  have here : ending ms <+: (written ms).drop ((contents ms).length + (directory 0 ms).length) :=
    prefix_right (a := directory 0 ms) ⟨[], (List.append_nil _).trans (written_drop ms).symm⟩
  have head := record?_of_fields here endMark (by decide) 22 rfl
  unfold EndRecord.read?
  rw [head]
  simp (disch := first | assumption | decide) only [Option.bind_eq_bind, Option.bind_some, number_fields_skip,
    number_fields_here, Nat.reduceSub]
  rw [size, if_neg (by simp; omega)]

theorem directory_read (fits : Fits ms) (names : (ms.map (·.name)).Nodup) :
    EndRecord.entries? (written ms)
        ⟨(contents ms).length + (directory 0 ms).length, ms.length, (contents ms).length⟩ =
      some (entriesOf 0 ms) := by
  unfold EndRecord.entries?
  dsimp only
  by_cases he : ms = []
  · subst he
    rfl
  have size := length_written ms
  have fitting := fits.size
  have mark := directory_ne_nil 0 he
  obtain ⟨later, found, -⟩ := places_of_prefix (s := (contents ms).length) (by decide)
    (mark.trans (List.prefix_append _ (ending ms)))
  have pos : 0 < (directory 0 ms).length := Nat.lt_of_lt_of_le (by decide) mark.length_le
  have listed : Zip.entries? (written ms) 0 ms.length (contents ms).length = some (entriesOf 0 ms) := by
    refine entries?_directory (p := (contents ms).length) ?_ fits.names (by omega)
    rw [written_drop]
    exact List.prefix_append _ _
  have before : (entriesOf 0 ms).all (fun e => e.place < (contents ms).length) = true := by
    refine List.all_eq_true.mpr fun e hm => ?_
    have := place_lt_of_mem_entriesOf hm
    rw [Nat.zero_add] at this
    simpa using this
  have added : (entriesOf 0 ms).foldl addEntry [] = entriesOf 0 ms := by
    refine (foldl_addEntry ?_).trans (List.nil_append _)
    rw [List.nil_append, names_entriesOf]
    exact names
  rw [if_neg (by simpa using he), written_drop, found, List.find?_cons_of_pos (by simpa using pos)]
  dsimp only [Option.bind_eq_bind, Option.bind_some]
  rw [Nat.sub_self, listed]
  dsimp only [Option.bind_some]
  rw [if_pos before, added]

/-- What is written is read back. -/
theorem read?_written (fits : Fits ms) (names : (ms.map (·.name)).Nodup) :
    read? (written ms) = some (entriesOf 0 ms) := by
  have size := length_written ms
  -- the end record is the last place that it can be found at
  obtain ⟨earlier, places_eq⟩ := places_append endMark 0 (contents ms ++ directory 0 ms) (ending ms)
  obtain ⟨later, found, behind⟩ := places_of_prefix (s := 0 + (contents ms ++ directory 0 ms).length)
    (show endMark ≠ [] by decide) (show endMark <+: ending ms from ⟨_, rfl⟩)
  rw [found, List.append_assoc, Nat.zero_add, List.length_append] at places_eq
  rw [Nat.zero_add, List.length_append] at behind
  have nothing : later.reverse.findSome? (fun place => do
      (← EndRecord.read? (written ms) place).entries? (written ms)) = none := by
    refine List.findSome?_eq_none_iff.mpr fun k hk => ?_
    have beyond := behind k (List.mem_reverse.mp hk)
    have short : record? (written ms) endMark k 22 = none := by
      unfold record?
      refine if_neg fun h => ?_
      have := h.1
      unfold part at this
      rw [List.length_take, List.length_drop, size] at this
      omega
    rw [EndRecord.read?, short]
    rfl
  unfold read?
  rw [written, places_eq]
  rw [← written, List.reverse_append, List.reverse_cons, List.append_assoc, List.findSome?_append, nothing]
  rw [Option.none_or, List.singleton_append, List.findSome?_cons, ending_read fits]
  dsimp only [Option.bind_eq_bind, Option.bind_some]
  rw [directory_read fits names]

/-- And every file is found behind its header. -/
theorem content?_written {archive : Octets} {place : Nat} (h : contents ms <+: archive.drop place)
    (hn : ∀ m ∈ ms, (Utf8.encode m.name).length < 0x10000) :
    List.Forall₂ (fun m e => e.name = m.name ∧ e.isLink = false ∧ e.content? archive = some ⟨m.content, true⟩) ms
      (entriesOf place ms) := by
  induction ms generalizing place with
  | nil => exact .nil
  | cons m ms ih =>
    have here : m.stored ++ contents ms <+: archive.drop place := by
      unfold contents at h ⊢
      rwa [List.flatMap_cons] at h
    refine .cons ⟨rfl, ?_, content?_stored (prefix_left here) (hn m List.mem_cons_self)⟩
      (ih (prefix_right here) fun m' hm => hn m' (List.mem_cons_of_mem m hm))
    simp [Entry.isLink, Member.entry, Nat.testBit]

theorem stored_written (fits : Fits ms) :
    List.Forall₂ (fun m e => e.name = m.name ∧ e.isLink = false ∧ e.content? (written ms) = some ⟨m.content, true⟩) ms
      (entriesOf 0 ms) := by
  have front : contents ms <+: (written ms).drop 0 := List.prefix_append _ _
  exact content?_written front fits.names

end

end Zip

end HostedGit
