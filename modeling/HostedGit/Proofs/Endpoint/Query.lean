/-
Queries of resources. Whatever a reference holds, the query that it is asked for by is the base URL's own, then exactly
the pairs of the resource. These tell the reference: its kind and its bare name are read back as the same two pairs for
a root item and for a download, and no other reference has them.
-/
import HostedGit.Proofs.Endpoint
import HostedGit.Proofs.Text.FormUrlencoded
import Mathlib.Data.List.Basic

namespace HostedGit

/-! ## Queries -/

namespace Url

/-- The pairs of a query, decoded. -/
def pairs (u : Url) : List (String × String) :=
  (FormUrlencoded.decode (u.query.getD [])).map fun p => (String.ofList p.1, String.ofList p.2)

/-- Added pairs are read back behind those that are there. -/
theorem pairs_appendQuery (u : Url) (added : List (String × String)) :
    (u.appendQuery (added.map fun p => (p.1.toList, p.2.toList))).pairs = u.pairs ++ added := by
  show (FormUrlencoded.decode (List.foldl FormUrlencoded.append _ _)).map _ = _
  rw [FormUrlencoded.decode_foldl_append, List.map_append, List.map_map]
  simp [pairs, Function.comp_def]

end Url

/-! ## Versions -/

/-- What the pairs of a query say of a reference: nothing for the default branch, else its kind and the bare name. -/
inductive Describes : List (String × String) → String → Prop
  | default : Describes [] ""
  | branch (name : String) :
      Describes [("versionDescriptor.versionType", "branch"), ("versionDescriptor.version", name)]
        ("refs/heads/" ++ name)
  | tag (name : String) :
      Describes [("versionDescriptor.versionType", "tag"), ("versionDescriptor.version", name)] ("refs/tags/" ++ name)
  | commit {name : String} (nonempty : name ≠ "") (branch : ¬ "refs/heads/".toList <+: name.toList)
      (tag : ¬ "refs/tags/".toList <+: name.toList) :
      Describes [("versionDescriptor.versionType", "commit"), ("versionDescriptor.version", name)] name

namespace Version

theorem below?_eq_some_iff {type : VersionType} {reference : String} {v : Version} :
    below? type reference = some v ↔ v.type = type ∧ reference = type.root ++ v.name := by
  unfold below?
  constructor
  · intro h
    obtain ⟨name, hn, rfl⟩ := Option.map_eq_some_iff.mp h
    refine ⟨rfl, String.toList_inj.mp ?_⟩
    rw [← List.isPrefixOf?_eq_some_iff_append_eq.mp hn, String.toList_append, String.toList_ofList]
  · rintro ⟨rfl, rfl⟩
    rw [String.toList_append, List.isPrefixOf?_eq_some_iff_append_eq.mpr rfl]
    simp

theorem below?_eq_none_iff {type : VersionType} {reference : String} :
    below? type reference = none ↔ ¬ type.root.toList <+: reference.toList := by
  unfold below?
  rw [Option.map_eq_none_iff, ← List.isPrefixOf_iff_prefix, ← List.isSome_isPrefixOf?_eq_isPrefixOf,
    Option.not_isSome_iff_eq_none]

end Version

namespace Endpoint

/-- The pairs that pick a version describe its reference. -/
theorem describes_versionPairs (reference : String) : Describes (versionPairs reference) reference := by
  unfold versionPairs Version.ofReference
  split
  · rename_i he
    rw [String.isEmpty_iff.mp he]
    exact .default
  rename_i hne
  cases hb : Version.below? .branch reference with
  | some v =>
    obtain ⟨type, name⟩ := v
    obtain ⟨rfl, rfl⟩ := Version.below?_eq_some_iff.mp hb
    exact .branch name
  | none =>
    cases ht : Version.below? .tag reference with
    | some v =>
      obtain ⟨type, name⟩ := v
      obtain ⟨rfl, rfl⟩ := Version.below?_eq_some_iff.mp ht
      exact .tag name
    | none =>
      exact .commit (by simpa using hne) (Version.below?_eq_none_iff.mp hb) (Version.below?_eq_none_iff.mp ht)

/-- Every reference has one description. -/
theorem describes_iff {described : List (String × String)} {reference : String} :
    Describes described reference ↔ described = versionPairs reference := by
  constructor
  · intro h
    unfold versionPairs Version.ofReference
    cases h with
    | default => rfl
    | branch name =>
      have hb : Version.below? .branch ("refs/heads/" ++ name) = some ⟨.branch, name⟩ :=
        Version.below?_eq_some_iff.mpr ⟨rfl, rfl⟩
      rw [if_neg (by simp), hb]
      rfl
    | tag name =>
      have hb : Version.below? .branch ("refs/tags/" ++ name) = none := by
        rw [Version.below?_eq_none_iff, String.toList_append]
        rintro ⟨rest, hr⟩
        cases hr
      have ht : Version.below? .tag ("refs/tags/" ++ name) = some ⟨.tag, name⟩ :=
        Version.below?_eq_some_iff.mpr ⟨rfl, rfl⟩
      rw [if_neg (by simp), hb, ht]
      rfl
    | commit nonempty branch tag =>
      have hb : Version.below? .branch reference = none := Version.below?_eq_none_iff.mpr branch
      have ht : Version.below? .tag reference = none := Version.below?_eq_none_iff.mpr tag
      rw [if_neg (by simpa using nonempty), hb, ht]
      rfl
  · rintro rfl
    exact describes_versionPairs reference

end Endpoint

namespace Describes

variable {described described' : List (String × String)} {reference reference' : String}

/-- Pairs describe one reference at most. -/
theorem unique (h : Describes described reference) (h' : Describes described reference') : reference = reference' := by
  generalize hd : described = described' at h'
  cases h <;> cases h' <;> simp_all

/-- A description is empty or ends with a bare name. -/
theorem ending (h : Describes described reference) :
    described = [] ∨ ∃ kind name,
      described = [("versionDescriptor.versionType", kind), ("versionDescriptor.version", name)] := by
  cases h
  · exact .inl rfl
  all_goals exact .inr ⟨_, _, rfl⟩

/-- Where a description stands behind a pair that is no bare name, its reference is told. -/
theorem unique_of_append {before before' after : List (String × String)} {mark : String × String}
    (hm : mark.1 ≠ "versionDescriptor.version") (h : Describes described reference)
    (h' : Describes described' reference')
    (he : before ++ mark :: described ++ after = before' ++ mark :: described' ++ after) : reference = reference' := by
  have alone : ∀ {before before' : List (String × String)} {kind name : String}, before ++ [mark] ≠
      before' ++ [mark, ("versionDescriptor.versionType", kind), ("versionDescriptor.version", name)] := by
    intro before before' kind name he
    have he : before ++ [mark] = (before' ++ [mark, ("versionDescriptor.versionType", kind)]) ++
        [("versionDescriptor.version", name)] := by simpa using he
    exact hm (congrArg Prod.fst (List.cons.inj (List.append_inj_right' he rfl)).1)
  have he := List.append_cancel_right he
  have same : described = described' := by
    rcases h.ending with rfl | ⟨kind, name, rfl⟩ <;> rcases h'.ending with rfl | ⟨kind', name', rfl⟩
    · rfl
    · exact absurd he alone
    · exact absurd he.symm alone
    · exact (List.cons.inj (List.append_inj_right' he rfl)).2
  subst same
  exact h.unique h'

end Describes

namespace Endpoint

variable {text : String} {base u : Url} {l : Locator} {e : Endpoint}

/-- The query of a resource is that of the base URL with its own pairs behind. -/
theorem pairs_of_url (hp : Url.parse text.toList = .ok base) (hu : e.url text l = .ok u) :
    u.pairs = base.pairs ++ e.pairs := by
  obtain ⟨path, rfl⟩ := exists_path_of_url hp hu
  exact Url.pairs_appendQuery _ _

theorem exists_pairs_of_url (hu : e.url text l = .ok u) : ∃ before, u.pairs = before ++ e.pairs := by
  cases hp : Url.parse text.toList with
  | ok base => exact ⟨base.pairs, pairs_of_url hp hu⟩
  | error cause =>
    unfold url at hu
    rw [hp] at hu
    cases hu

variable {text' : String} {l' : Locator} {reference reference' : String}

/-- A root item's URL is one reference's only, whatever the base URL and the repository are. -/
theorem rootItem_inj (hu : url text l (.rootItem reference) = .ok u)
    (hu' : url text' l' (.rootItem reference') = .ok u) : reference = reference' := by
  obtain ⟨before, hb⟩ := exists_pairs_of_url hu
  obtain ⟨before', hb'⟩ := exists_pairs_of_url hu'
  have told : before ++ ("scopePath", "/") :: versionPairs reference ++ [apiVersion] =
      before' ++ ("scopePath", "/") :: versionPairs reference' ++ [apiVersion] := by
    simpa [pairs] using hb.symm.trans hb'
  exact Describes.unique_of_append (by decide) (describes_versionPairs reference) (describes_versionPairs reference')
    told

/-- A download's URL is one reference's only, whatever the base URL and the repository are. -/
theorem download_inj (hu : url text l (.download reference) = .ok u)
    (hu' : url text' l' (.download reference') = .ok u) : reference = reference' := by
  obtain ⟨before, hb⟩ := exists_pairs_of_url hu
  obtain ⟨before', hb'⟩ := exists_pairs_of_url hu'
  let after := [("$format", "zip"), ("recursionLevel", "full"), apiVersion]
  have told : (before ++ [("scopePath", "/")]) ++ ("download", "true") :: versionPairs reference ++ after =
      (before' ++ [("scopePath", "/")]) ++ ("download", "true") :: versionPairs reference' ++ after := by
    simpa [pairs, after] using hb.symm.trans hb'
  exact Describes.unique_of_append (by decide) (describes_versionPairs reference) (describes_versionPairs reference')
    told

/-- Whatever a reference holds, a root item and a download are asked for by the base URL's own pairs, then exactly the
pairs of the resource, among them the same description of the reference. It is read back from either, and no other
reference has the same URL. -/
theorem query_tells_reference (hp : Url.parse text.toList = .ok base) (hs : Scheme.isHttp base.scheme = true)
    (l : Locator) (reference : String) :
    ∃ root archive described, url text l (.rootItem reference) = .ok root ∧
      url text l (.download reference) = .ok archive ∧ Describes described reference ∧
      root.pairs = base.pairs ++ [("scopePath", "/")] ++ described ++ [("api-version", "6.0")] ∧
      archive.pairs = base.pairs ++ [("scopePath", "/"), ("download", "true")] ++ described ++
        [("$format", "zip"), ("recursionLevel", "full"), ("api-version", "6.0")] ∧
      ∀ text' l' reference', url text' l' (.rootItem reference') = .ok root ∨
        url text' l' (.download reference') = .ok archive → reference' = reference := by
  obtain ⟨root, hroot, -⟩ := url_ok hp hs l (.rootItem reference)
  obtain ⟨archive, harchive, -⟩ := url_ok hp hs l (.download reference)
  refine ⟨root, archive, versionPairs reference, hroot, harchive, describes_versionPairs reference, ?_, ?_, ?_⟩
  · simp [pairs_of_url hp hroot, pairs, apiVersion]
  · simp [pairs_of_url hp harchive, pairs, apiVersion]
  · rintro text' l' reference' (h | h)
    · exact rootItem_inj h hroot
    · exact download_inj h harchive

/-- A name that is written like further pairs of a query is a name all the same. -/
theorem query_tells_reference_marks :
    ∃ root archive described,
      url "https://ado.example/base?keep=a%26b&x" ⟨"o", "p", "r", .blank⟩
        (.rootItem "refs/tags/v1&scopePath=/x+y%26z#é") = .ok root ∧
      url "https://ado.example/base?keep=a%26b&x" ⟨"o", "p", "r", .blank⟩
        (.download "refs/tags/v1&scopePath=/x+y%26z#é") = .ok archive ∧
      described = [("versionDescriptor.versionType", "tag"), ("versionDescriptor.version", "v1&scopePath=/x+y%26z#é")] ∧
      root.pairs = [("keep", "a&b"), ("x", ""), ("scopePath", "/")] ++ described ++ [("api-version", "6.0")] ∧
      archive.pairs = [("keep", "a&b"), ("x", ""), ("scopePath", "/"), ("download", "true")] ++ described ++
        [("$format", "zip"), ("recursionLevel", "full"), ("api-version", "6.0")] := by
  have hp : Url.parse "https://ado.example/base?keep=a%26b&x".toList = .ok ⟨"https".toList,
      some ⟨[], [], "ado.example".toList, none⟩, .segments ["base".toList], some "keep=a%26b&x".toList, none⟩ :=
    Locator.eq_ok_of_toOption (by decide +kernel)
  obtain ⟨root, archive, described, hroot, harchive, hd, hr, ha, -⟩ :=
    query_tells_reference hp rfl ⟨"o", "p", "r", .blank⟩ "refs/tags/v1&scopePath=/x+y%26z#é"
  have kept : Url.pairs ⟨"https".toList, some ⟨[], [], "ado.example".toList, none⟩, .segments ["base".toList],
      some "keep=a%26b&x".toList, none⟩ = [("keep", "a&b"), ("x", "")] := by decide +kernel
  rw [kept] at hr ha
  exact ⟨root, archive, described, hroot, harchive, (describes_iff.mp hd).trans (by decide +kernel), hr, ha⟩

end Endpoint

end HostedGit
