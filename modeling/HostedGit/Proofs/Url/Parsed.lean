/-
URLs that have been read. A URL of a scheme that requests are made by has an authority and a path of
segments, none of which holds a `/`.
-/
import HostedGit.Proofs.Text.Cut
import HostedGit.Proofs.Url.Path

namespace HostedGit

/-! ## Schemes -/

namespace Scheme

theorem eq_of_isHttp {scheme : List Char} (h : isHttp scheme = true) :
    scheme = "http".toList ∨ scheme = "https".toList := by
  simpa only [isHttp, Bool.or_eq_true, decide_eq_true_eq] using h

theorem isSpecial_of_isHttp {scheme : List Char} (h : isHttp scheme = true) : isSpecial scheme = true := by
  rcases eq_of_isHttp h with rfl | rfl <;> rfl

theorem isFile_of_isHttp {scheme : List Char} (h : isHttp scheme = true) : isFile scheme = false := by
  rcases eq_of_isHttp h with rfl | rfl <;> rfl

end Scheme

namespace Url

/-! ## Whole URLs -/

theorem readAfterSlashes_ok {scheme cs : List Char} {u : Url} (h : readAfterSlashes scheme cs = .ok u) :
    ∃ authority rest, readAuthority scheme cs = .ok (authority, rest) ∧
      u = ⟨scheme, some authority, .segments (rootedPath (Scheme.isSpecial scheme) (Tail.ofText rest).path),
        (Tail.ofText rest).escapedQuery (Scheme.isSpecial scheme), (Tail.ofText rest).escapedFragment⟩ := by
  unfold readAfterSlashes at h
  cases hr : readAuthority scheme cs with
  | error e => rw [hr] at h; cases h
  | ok p =>
    rw [hr] at h
    cases h
    exact ⟨p.1, p.2, rfl, rfl⟩

theorem readAfterScheme_http {scheme : List Char} (h : Scheme.isHttp scheme = true) (rest : List Char) :
    readAfterScheme scheme rest = readAfterSlashes scheme (rest.dropWhile (isSlash true)) := by
  unfold readAfterScheme
  rw [Scheme.isFile_of_isHttp h, if_neg Bool.false_ne_true, if_pos (Scheme.isSpecial_of_isHttp h)]

theorem scheme_of_readFile {cs : List Char} {u : Url} (h : readFile cs = .ok u) : u.scheme = "file".toList := by
  have last : ∀ {host : Except UrlError (List Char)} {F : List Char → Url},
      (∀ h, (F h).scheme = "file".toList) → (host >>= fun h => pure (F h)) = .ok u →
      u.scheme = "file".toList := by
    intro host F hF h
    cases host with
    | error e => cases h
    | ok host =>
      cases h
      exact hF host
  unfold readFile at h
  split at h
  dsimp only at h
  split at h
  · exact last (fun _ => rfl) h
  · exact last (fun _ => rfl) h

/-- A URL has the scheme that its text starts with. -/
theorem scheme_of_readAfterScheme {scheme rest : List Char} {u : Url}
    (h : readAfterScheme scheme rest = .ok u) : u.scheme = scheme := by
  unfold readAfterScheme at h
  split at h
  · rename_i hf
    rw [scheme_of_readFile h]
    exact (of_decide_eq_true hf).symm
  split at h
  · obtain ⟨_, _, -, rfl⟩ := readAfterSlashes_ok h
    rfl
  split at h
  · obtain ⟨_, _, -, rfl⟩ := readAfterSlashes_ok h
    rfl
  · cases h
    rfl

/-- How a URL is read whose scheme is one that requests are made by. -/
theorem parse_http {text : List Char} {u : Url} (h : parse text = .ok u) (hs : Scheme.isHttp u.scheme = true) :
    ∃ rest, scheme? (clean text) = some (u.scheme, rest) ∧
      readAfterSlashes u.scheme (rest.dropWhile (isSlash true)) = .ok u := by
  unfold parse at h
  cases hc : scheme? (clean text) with
  | none => rw [hc] at h; cases h
  | some p =>
    obtain ⟨scheme, rest⟩ := p
    rw [hc] at h
    dsimp only at h
    have hscheme := scheme_of_readAfterScheme h
    rw [hscheme] at hs ⊢
    exact ⟨rest, rfl, by rw [← readAfterScheme_http hs]; exact h⟩

/-! ## Paths -/

/-- Cut at `/`, a text gives the parts without `/` that it is put together of. -/
theorem splitOn_eq_cons_iff {cs s : List Char} {list : List (List Char)} : cs.splitOn '/' = s :: list ↔
    cs = s ++ list.flatMap ('/' :: ·) ∧ '/' ∉ s ∧ ∀ t ∈ list, '/' ∉ t := by
  constructor
  · intro h
    have free : ∀ t ∈ s :: list, '/' ∉ t := by
      intro t ht hm
      rw [← h] at ht
      exact absurd (Text.mem_of_mem_splitOnP ht '/' hm).2 (by decide)
    have joined : ∀ s : List Char, ['/'].intercalate (s :: list) = s ++ list.flatMap ('/' :: ·) := by
      clear h free
      induction list with
      | nil => simp
      | cons t list ih => simp [List.intercalate_cons_cons, ih]
    rw [← joined, ← h, List.intercalate_splitOn]
    exact ⟨rfl, free s List.mem_cons_self, fun t ht => free t (List.mem_cons_of_mem _ ht)⟩
  · rintro ⟨rfl, hs, ht⟩
    exact splitOn_append_flatMap hs ht

theorem slash_not_mem_pieces {special : Bool} {path : List Char} : ∀ s ∈ pieces special path, '/' ∉ s := by
  intro s hs
  obtain ⟨piece, hp, rfl⟩ := List.mem_map.mp hs
  refine slash_not_mem_encode (.inl fun hm => ?_)
  cases (Text.mem_of_mem_splitOnP hp '/' hm).2

theorem slash_not_mem_rootedPath {special : Bool} {path : List Char} : ∀ s ∈ rootedPath special path, '/' ∉ s := by
  unfold rootedPath
  split
  · exact forall_mem_walk List.not_mem_nil nofun slash_not_mem_pieces
  · split
    · intro s hs
      cases List.mem_singleton.mp hs
      exact List.not_mem_nil
    · nofun

/-- The path of a URL that requests can be made to. -/
theorem path_of_parse_http {text : List Char} {u : Url} (h : parse text = .ok u)
    (hs : Scheme.isHttp u.scheme = true) : u.path = .segments u.segments ∧ ∀ s ∈ u.segments, '/' ∉ s := by
  obtain ⟨rest, -, hr⟩ := parse_http h hs
  obtain ⟨_, _, -, hu⟩ := readAfterSlashes_ok hr
  rw [hu]
  exact ⟨rfl, slash_not_mem_rootedPath⟩

end Url

end HostedGit
