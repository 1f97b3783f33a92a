/-
What the remote answers with, as it is written. Of a listing only the names matter: how they are spelled, the white
space, the order of members, and members that nobody asks for make no difference.
-/
import HostedGit.Payload
import HostedGit.Proofs.Json.Read

namespace HostedGit

namespace Json

variable {α : Type}

/-! ## Records of one field -/

/-- An object with one member whose key is among `keys`. Every other member has another key, and any value. -/
def Sole (keys : List String) (W : α → Octets → Octets → Prop) (a : α) (s r : Octets) : Prop :=
  ∃ (before : List (List Char)) (key : List Char) (after : List (List Char)), String.ofList key ∈ keys ∧
    (∀ k ∈ before ++ after, String.ofList k ∉ keys) ∧
    ObjectOf W (before.map (·, none) ++ (key, some a) :: after.map (·, none)) s r

namespace Record

variable {R : Record α} {given given' : List (Option α)}

/-- Members that name no field may stand before others. -/
theorem Fills.others {keys : List (List Char)} {ms : List (List Char × Option α)}
    (hk : ∀ k ∈ keys, R.find? (String.ofList k) = none) (h : R.Fills given ms given') :
    R.Fills given (keys.map (·, none) ++ ms) given' := by
  induction keys with
  | nil => exact h
  | cons k keys ih =>
    exact .other (hk k List.mem_cons_self) (ih fun x hx => hk x (List.mem_cons_of_mem k hx))

theorem find?_of_one {f : Field α} (hf : R.fields = [f]) (key : String) :
    R.find? key = if key ∈ f.name :: f.aliases then some 0 else none := by
  have names : (f.name == key || f.aliases.contains key) = true ↔ key ∈ f.name :: f.aliases := by
    rw [Bool.or_eq_true, beq_iff_eq, List.contains_iff_mem, List.mem_cons, eq_comm]
  unfold find?
  rw [hf, List.findIdx?_singleton]
  simp only [names]

/-- A record of one field is read from the one member that names it. -/
theorem read_sole {W : α → Octets → Octets → Prop} {f : Field α} (hf : R.fields = [f]) (hr : Reads R.value W) (d : α) :
    Reads (Reader.map (·.headD d) R.read) (Sole (f.name :: f.aliases) W) := by
  refine (read_reads hr).map fun {a s r} h => ?_
  obtain ⟨before, key, after, hk, others, h⟩ := h
  have unknown : ∀ k ∈ before ++ after, R.find? (String.ofList k) = none := by
    intro k hk
    rw [find?_of_one hf, if_neg (others k hk)]
  have known : R.find? (String.ofList key) = some 0 := by rw [find?_of_one hf, if_pos hk]
  have filled : R.Fills (R.fields.map fun _ => none) (before.map (·, none) ++ (key, some a) :: after.map (·, none))
      [some a] := by
    rw [hf]
    refine .others (fun k hk => unknown k (List.mem_append_left _ hk)) (.field known rfl ?_)
    rw [← List.append_nil (after.map _)]
    exact .others (fun k hk => unknown k (List.mem_append_right _ hk)) .nil
  refine ⟨[a], ⟨_, _, h, filled, ?_⟩, rfl⟩
  rw [hf]
  rfl

end Record

end Json

namespace Payload

open Json

/-! ## Documents -/

/-- A body that lists references: an envelope with a list of objects, each with a name. -/
def RefsDocument (names : List String) (body : Octets) : Prop :=
  Json.Document (Sole ["value", "Value"] (ListOf (Sole ["name"] TextOf))) names body

theorem refsDocument_escaped : RefsDocument ["A𝄞", "HEAD"] (octets
    (" \x7b\"x\":[null],\"Value\":[\x7b\"n\":-0.5,\"name\":\"A\\ud834\\udd1e\"\x7d,\x7b\"name\":" ++
      "\"HEAD\"\x7d]\x7d")) := by
  have digit (n : Nat) (b : UInt8) (h : n < 10 ∧ b.toNat = 0x30 + n) : IsHexDigit b n := .inl h
  have letter (n : Nat) (b : UInt8) (h : 10 ≤ n ∧ n < 16 ∧ b.toNat = 0x57 + n) : IsHexDigit b n :=
    .inr ⟨h.1, h.2.1, .inl h.2.2⟩
  have written : octets (" \x7b\"x\":[null],\"Value\":[\x7b\"n\":-0.5,\"name\":\"A\\ud834\\udd1e\"\x7d,\x7b\"name\":" ++
      "\"HEAD\"\x7d]\x7d") = 0x20 :: 0x7B :: 0x22 :: (octets "x" ++ 0x22 :: 0x3A :: 0x5B :: (octets "null" ++ 0x5D ::
      0x2C :: 0x22 :: (octets "Value" ++ 0x22 :: 0x3A :: 0x5B :: 0x7B :: 0x22 :: (octets "n" ++ 0x22 :: 0x3A ::
      0x2D :: 0x30 :: 0x2E :: 0x35 :: 0x2C :: 0x22 :: (octets "name" ++ 0x22 :: 0x3A :: 0x22 ::
      (Utf8.encodeChar 'A' ++ 0x5C :: 0x75 :: 0x64 :: 0x38 :: 0x33 :: 0x34 :: 0x5C :: 0x75 :: 0x64 :: 0x64 ::
      0x31 :: 0x65 :: 0x22 :: 0x7D :: 0x2C :: 0x7B :: 0x22 :: (octets "name" ++ 0x22 :: 0x3A :: 0x22 ::
      (octets "HEAD" ++ [0x22, 0x7D, 0x5D, 0x7D])))))))) := by decide +kernel
  have null (r : Octets) : Wellformed .value (0x5B :: (octets "null" ++ 0x5D :: r)) r :=
    .list (.refl _) (.lastElement (.name (by decide)) (.refl _))
  have half (r : Octets) : Wellformed .value (0x2D :: 0x30 :: 0x2E :: 0x35 :: r) r :=
    .negative ⟨_, _, .zero, .some ⟨0x35, [], List.forall_mem_singleton.mpr rfl, rfl⟩, .none⟩
  have clef (u r : Octets) (h : Spelled [] u r) :
      Spelled ['𝄞']
        (0x5C :: 0x75 :: 0x64 :: 0x38 :: 0x33 :: 0x34 :: 0x5C :: 0x75 :: 0x64 :: 0x64 :: 0x31 :: 0x65 :: u) r :=
    .halves (i := 0x34) (j := 0x11E) (by decide) (by decide) rfl
      (.digits (letter 13 _ (by decide)) (digit 8 _ (by decide)) (digit 3 _ (by decide)) (digit 4 _ (by decide)))
      (.digits (letter 13 _ (by decide)) (letter 13 _ (by decide)) (digit 1 _ (by decide)) (letter 14 _ (by decide)))
      h
  have first (r : Octets) : Sole ["name"] TextOf "A𝄞" (0x7B :: 0x22 :: (octets "n" ++ 0x22 :: 0x3A :: 0x2D :: 0x30 ::
      0x2E :: 0x35 :: 0x2C :: 0x22 :: (octets "name" ++ 0x22 :: 0x3A :: 0x22 :: (Utf8.encodeChar 'A' ++ 0x5C ::
      0x75 :: 0x64 :: 0x38 :: 0x33 :: 0x34 :: 0x5C :: 0x75 :: 0x64 :: 0x64 :: 0x31 :: 0x65 :: 0x22 :: 0x7D ::
      r)))) r := by
    refine ⟨["n".toList], "name".toList, [], by decide, by decide, ?_⟩
    refine .members (.refl _) (.cons (spelled_of_all (by decide) _) (.refl _) (.refl _) (.other (half _)) (.refl _)
      (.refl _) ?_)
    refine .last (spelled_of_all (by decide) _) (.refl _) (.refl _) (.meant (.quoted ?_)) (.refl _)
    exact .plain (by decide) (clef _ _ .close)
  have second (r : Octets) : Sole ["name"] TextOf "HEAD" (0x7B :: 0x22 :: (octets "name" ++ 0x22 :: 0x3A :: 0x22 ::
      (octets "HEAD" ++ 0x22 :: 0x7D :: r))) r := by
    refine ⟨[], "name".toList, [], by decide, by decide, .members (.refl _) ?_⟩
    exact .last (spelled_of_all (by decide) _) (.refl _) (.refl _) (.meant (.quoted (spelled_of_all (by decide) _)))
      (.refl _)
  rw [written]
  refine ⟨_, _, ⟨[0x20], List.forall_mem_singleton.mpr (by decide), rfl⟩,
    ⟨["x".toList], "Value".toList, [], by decide, by decide, ?_⟩, .refl _⟩
  refine .members (.refl _) (.cons (spelled_of_all (by decide) _) (.refl _) (.refl _) (.other (null _)) (.refl _)
    (.refl _) ?_)
  refine .last (spelled_of_all (by decide) _) (.refl _) (.refl _) (.meant (.elements (.refl _) ?_)) (.refl _)
  exact .cons (first _) (.refl _) (.refl _) (.last (second _) (.refl _))

/-- A body that lists what is below a tree: a list of entries, each with a path. -/
def TreeDocument (paths : List String) (body : Octets) : Prop :=
  Json.Document (Sole ["treeEntries"] (ListOf (Sole ["relativePath"] TextOf))) paths body

theorem treeDocument_escaped : TreeDocument ["src/lib.rs"]
    (octets "\x7b\"treeEntries\":[\x7b\"relativePath\":\"src\\/lib.rs\"\x7d]\x7d") := by
  have written : octets "\x7b\"treeEntries\":[\x7b\"relativePath\":\"src\\/lib.rs\"\x7d]\x7d" =
      0x7B :: 0x22 :: (octets "treeEntries" ++ 0x22 :: 0x3A :: 0x5B :: 0x7B :: 0x22 ::
      (octets "relativePath" ++ 0x22 :: 0x3A :: 0x22 :: (octets "src" ++ 0x5C :: 0x2F ::
      (octets "lib.rs" ++ [0x22, 0x7D, 0x5D, 0x7D])))) := by decide +kernel
  have text : "src/lib.rs".toList = 's' :: 'r' :: 'c' :: '/' :: "lib.rs".toList := by decide
  have path (r : Octets) :
      Spelled "src/lib.rs".toList (octets "src" ++ 0x5C :: 0x2F :: (octets "lib.rs" ++ 0x22 :: r)) r := by
    rw [text]
    refine .plain (by decide) (.plain (by decide) (.plain (by decide) ?_))
    exact .letter (by decide) (spelled_of_all (by decide) _)
  rw [written]
  refine ⟨_, _, .refl _, ⟨[], "treeEntries".toList, [], by decide, by decide, .members (.refl _) ?_⟩, .refl _⟩
  refine .last (spelled_of_all (by decide) _) (.refl _) (.refl _) (.meant (.elements (.refl _) ?_)) (.refl _)
  refine .last ⟨[], "relativePath".toList, [], by decide, by decide, .members (.refl _) ?_⟩ (.refl _)
  exact .last (spelled_of_all (by decide) _) (.refl _) (.refl _) (.meant (.quoted (path _))) (.refl _)

theorem gitRef_reads : Reads gitRef (Sole ["name"] TextOf) :=
  Record.read_sole (R := ⟨"GitRef", [required "name"], readString⟩) rfl readString_reads ""

theorem treeEntry_reads : Reads treeEntry (Sole ["relativePath"] TextOf) :=
  Record.read_sole (R := ⟨"TreeEntry", [required "relativePath"], readString⟩) rfl readString_reads ""

theorem valueList_reads {α : Type} {value : Reader α} {W : α → Octets → Octets → Prop} (h : Reads value W) :
    Reads (valueList value) (Sole ["value", "Value"] (ListOf W)) :=
  Record.read_sole (R := ⟨"ValueList", [⟨"value", ["Value"], some []⟩], readList value⟩) rfl (readList_reads h) []

theorem tree_reads : Reads tree (Sole ["treeEntries"] (ListOf (Sole ["relativePath"] TextOf))) :=
  Record.read_sole (R := ⟨"Tree", [optional "treeEntries" []], readList treeEntry⟩) rfl
    (readList_reads treeEntry_reads) []

theorem decodeRefs_of_document {names : List String} {body : Octets} (h : RefsDocument names body) :
    decodeRefs body = .ok (names.filter (· ≠ symbolicHead)) := by
  rw [decodeRefs, decode_of_document (valueList_reads gitRef_reads) h]
  rfl

theorem decodeTree_of_document {paths : List String} {body : Octets} (h : TreeDocument paths body) :
    decodeTree body = .ok paths := decode_of_document tree_reads h

end Payload

end HostedGit
