/-
Texts of URLs, read back. A URL over HTTP whose parts are written as they are held, and that has no port,
query or fragment, is what its own text is read as.
-/
import HostedGit.Proofs.Url.Authority

namespace HostedGit

/-! ## Host and credentials -/

/-- An authority that its text can be read back as. -/
structure Authority.Written (a : Authority) : Prop where
  username : ∀ c ∈ a.username, Url.Escape.userinfo c = true
  password : ∀ c ∈ a.password, Url.Escape.userinfo c = true
  place : ∀ c ∈ a.host, Url.Escape.userinfo c = true
  host : Host.parse a.host = .ok a.host
  nonempty : a.host ≠ []
  port : a.port = none

namespace Url

variable {c : Char} {cs : List Char} {scheme : List Char} {a : Authority} {segments : List (List Char)}

/-- What a username, a password or a written host never holds. -/
theorem of_escape_userinfo (h : Escape.userinfo c = true) :
    isBlank c = false ∧ endsAuthority true c = false ∧ c ≠ ':' ∧ c ≠ '@' := by
  simp only [Escape.userinfo, Escape.visibleExcept, Escape.pathLeft, Escape.common, Percent.isVisible, Bool.and_eq_true,
    decide_eq_true_eq, Bool.not_eq_true', List.contains_eq_mem, decide_eq_false_iff_not, List.mem_append,
    List.mem_cons, List.not_mem_nil, or_false, not_or] at h
  simp only [isBlank, endsAuthority, isSlash, decide_eq_false_iff_not, Bool.or_eq_false_iff, Bool.true_and]
  have space : c.toNat ≠ 0x20 := fun hc => h.2.1.1.1 (Char.toNat_inj.mp hc)
  refine ⟨by omega, ?_⟩
  tauto

theorem not_isBlank_of_path (h : Escape.path c = true) : isBlank c = false := by
  simp only [Escape.path, Escape.visibleExcept, Percent.isVisible, Bool.and_eq_true, decide_eq_true_eq] at h
  have space : c.toNat ≠ 0x20 := fun hc => by
    rw [Char.toNat_inj.mp (show c.toNat = ' '.toNat from hc)] at h
    exact absurd h.2 (by decide)
  simp only [isBlank, decide_eq_false_iff_not]
  omega

theorem inside_of_escape (h : ∀ c ∈ cs, Escape.userinfo c = true) : Inside cs := fun c hc =>
  (of_escape_userinfo (h c hc)).2.1

theorem cutHost_of_not_mem (h : ':' ∉ cs) (inside : Bool) : cutHost inside cs = (cs, []) := by
  induction cs generalizing inside with
  | nil => rfl
  | cons c cs ih =>
    simp only [List.mem_cons, not_or] at h
    simp [cutHost, Ne.symm h.1, ih h.2]

/-- A host without a port. -/
theorem readPlace_host (hs : Scheme.isSpecial scheme = true) (ha : a.Written) :
    readPlace scheme a.host = .ok (a.host, a.port, []) := by
  have colon : ':' ∉ a.host := fun hm => (of_escape_userinfo (ha.place _ hm)).2.2.1 rfl
  unfold readPlace
  rw [hs, cutHost_of_not_mem colon, ha.port]
  simp only [List.isEmpty_eq_false_iff.mpr ha.nonempty, Bool.and_false, Bool.false_eq_true, if_false, if_true, ha.host,
    List.isEmpty_nil, Bool.not_true]
  rfl

theorem cutTail_of_not_mem {mark : Char} (h : mark ∉ cs) : cutTail mark cs = (cs, none) := by
  unfold cutTail
  cases hc : Text.cut? mark cs with
  | none => rfl
  | some p => exact absurd ((Text.cut?_some hc).1 ▸ by simp) h

/-- The username and the password of an authority, as they stand before its `@`. -/
def credentialsText (a : Authority) : List Char :=
  if a.password.isEmpty then a.username else a.username ++ ':' :: a.password

theorem readUserinfo_credentialsText (ha : a.Written) :
    readUserinfo (credentialsText a) = (a.username, a.password) := by
  have colon : ':' ∉ a.username := fun hm => (of_escape_userinfo (ha.username _ hm)).2.2.1 rfl
  unfold credentialsText
  split
  · rename_i hp
    rw [readUserinfo, cutTail_of_not_mem colon]
    dsimp only
    rw [Percent.encode_eq_self ha.username, List.isEmpty_iff.mp hp]
    rfl
  · rw [readUserinfo_append_cons colon, Percent.encode_eq_self ha.username, Percent.encode_eq_self ha.password]

theorem mem_credentialsText (ha : a.Written) (hc : c ∈ credentialsText a) : Escape.userinfo c = true ∨ c = ':' := by
  unfold credentialsText at hc
  split at hc
  · exact .inl (ha.username c hc)
  · simp only [List.mem_append, List.mem_cons] at hc
    rcases hc with hc | hc | hc
    · exact .inl (ha.username c hc)
    · exact .inr hc
    · exact .inl (ha.password c hc)

theorem inside_credentialsText (ha : a.Written) : Inside (credentialsText a) := by
  intro c hc
  rcases mem_credentialsText ha hc with h | rfl
  · exact (of_escape_userinfo h).2.1
  · decide

theorem text_eq (ha : a.Written) :
    a.text = (if (credentialsText a).isEmpty then [] else credentialsText a ++ ['@']) ++ a.host := by
  unfold Authority.text Authority.hostText
  rw [ha.port]
  simp [Authority.userinfoText, credentialsText]

theorem mem_text (ha : a.Written) (hc : c ∈ a.text) : isBlank c = false ∧ isSlash true c = false := by
  have marks : ∀ c, c = ':' ∨ c = '@' → isBlank c = false ∧ isSlash true c = false := by
    rintro c (rfl | rfl) <;> decide
  have safe : Escape.userinfo c = true → isBlank c = false ∧ isSlash true c = false := fun h =>
    ⟨(of_escape_userinfo h).1, ((inside_of_escape (List.forall_mem_singleton.mpr h)).not_isSlash c (by simp))⟩
  rw [text_eq ha, List.mem_append] at hc
  rcases hc with hc | hc
  · split at hc
    · cases hc
    simp only [List.mem_append, List.mem_singleton] at hc
    rcases hc with hc | hc
    · rcases mem_credentialsText ha hc with h | h
      · exact safe h
      · exact marks c (.inl h)
    · exact marks c (.inr hc)
  · exact safe (ha.place c hc)

/-- An authority is read off its own text. -/
theorem readAuthority_text (hs : Scheme.isSpecial scheme = true) (ha : a.Written)
    (hc : endsAuthority true c = true) (rest : List Char) :
    readAuthority scheme (a.text ++ c :: rest) = .ok (a, c :: rest) := by
  obtain ⟨hplace, hrest⟩ := authorityOf_append_cons (inside_of_escape ha.place) hc rest
  have at' : '@' ∉ a.host := fun hm => (of_escape_userinfo (ha.place _ hm)).2.2.2 rfl
  rw [text_eq ha, List.append_assoc]
  split
  · rename_i he
    -- nothing stands before the host, and the credentials are empty
    have blank := readUserinfo_credentialsText ha
    rw [List.isEmpty_iff.mp he] at blank
    have uncut : cutUserinfo a.host = (none, a.host) := by
      unfold cutUserinfo
      rw [Text.cutLast?_eq_none_iff.mpr at']
    unfold authorityOf at hplace
    unfold readAuthority
    simp only [List.nil_append, hs, hplace, hrest, uncut, Option.getD_none, blank, readPlace_host hs ha]
    rw [if_neg (by simp), if_neg (by simp [ha.nonempty])]
  · rw [List.append_assoc, List.singleton_append, readAuthority_iff hs (inside_credentialsText ha)
      (by rw [hplace]; exact at') ha.nonempty, hplace, hrest]
    exact ⟨readUserinfo_credentialsText ha, [], readPlace_host hs ha, rfl⟩

/-! ## Paths -/

/-- A segment that a path holds as it is written. -/
structure Kept (s : List Char) : Prop where
  held : ∀ c ∈ s, Escape.path c = true ∧ isSlash true c = false
  single : isSingleDot s = false
  double : isDoubleDot s = false

theorem walk_of_kept (h : ∀ s ∈ segments, Kept s) (done : List (List Char)) :
    walk done segments = done ++ segments := by
  induction segments generalizing done with
  | nil => simp [walk]
  | cons s segments ih =>
    have hs := h s (by simp)
    simp [walk, hs.single, hs.double, ih fun t ht => h t (by simp [ht])]

theorem splitOnP_of_kept {s : List Char} (hs : Kept s) (h : ∀ t ∈ segments, Kept t) :
    (s ++ segments.flatMap ('/' :: ·)).splitOnP (isSlash true) = s :: segments := by
  induction segments generalizing s with
  | nil => simpa using List.splitOnP_eq_singleton fun c hc => (hs.held c hc).2
  | cons t segments ih =>
    rw [List.flatMap_cons, List.cons_append,
      List.splitOnP_append_cons_of_forall_mem (fun c hc => (hs.held c hc).2) '/' rfl,
      ih (h t (by simp)) fun t' ht' => h t' (by simp [ht'])]

theorem rootedPath_of_kept (hne : segments ≠ []) (h : ∀ s ∈ segments, Kept s) :
    rootedPath true (UrlPath.segments segments).text = segments := by
  obtain ⟨s, rest, rfl⟩ := List.exists_cons_of_ne_nil hne
  have slash : isSlash true '/' = true := rfl
  have escaped : (s :: rest).map (Percent.encode Escape.path) = s :: rest := by
    refine (List.map_congr_left fun t ht => ?_).trans (List.map_id _)
    exact Percent.encode_eq_self fun c hc => ((h t ht).held c hc).1
  show walk [] (pieces true (if isSlash true '/' then s ++ rest.flatMap ('/' :: ·) else _)) = _
  rw [if_pos slash, pieces, splitOnP_of_kept (h s (by simp)) fun t ht => h t (by simp [ht]), escaped, walk_of_kept h]
  rfl

theorem mem_text_of_kept (h : ∀ s ∈ segments, Kept s) (hc : c ∈ (UrlPath.segments segments).text) :
    Escape.path c = true := by
  obtain ⟨s, hs, hc⟩ := List.mem_flatMap.mp hc
  rcases List.mem_cons.mp hc with rfl | hc
  · rfl
  · exact ((h s hs).held c hc).1

/-! ## Whole URLs -/

/-- A URL over HTTP without port, query and fragment, whose parts are written as they are held, is read off
its own text. -/
theorem parse_text (hs : Scheme.isHttp scheme = true) (ha : a.Written) (hne : segments ≠ [])
    (h : ∀ s ∈ segments, Kept s) :
    parse (text ⟨scheme, some a, .segments segments, none, none⟩) =
      .ok ⟨scheme, some a, .segments segments, none, none⟩ := by
  have hspecial := Scheme.isSpecial_of_isHttp hs
  obtain ⟨s, rest, he⟩ := List.exists_cons_of_ne_nil hne
  have path : (UrlPath.segments segments).text = '/' :: (s ++ rest.flatMap ('/' :: ·)) := by
    rw [he]
    rfl
  have whole : text ⟨scheme, some a, .segments segments, none, none⟩ =
      scheme ++ "://".toList ++ (a.text ++ (UrlPath.segments segments).text) := by
    simp [text, originText, authorityText, target]
  have visible : ∀ c ∈ a.text ++ (UrlPath.segments segments).text, isBlank c = false := by
    intro c hc
    rcases List.mem_append.mp hc with hc | hc
    · exact (mem_text ha hc).1
    · exact not_isBlank_of_path (mem_text_of_kept h hc)
  -- no slash stands before the authority
  obtain ⟨x, xs, hx⟩ := List.exists_cons_of_ne_nil (l := a.text) (by rw [text_eq ha]; simp [ha.nonempty])
  have start : ¬isSlash true x = true := by simp [(mem_text ha (hx ▸ List.mem_cons_self)).2]
  have read : readAuthority scheme (a.text ++ (UrlPath.segments segments).text) =
      .ok (a, (UrlPath.segments segments).text) := by
    rw [path]
    exact readAuthority_text hspecial ha rfl _
  have unmarked : ∀ mark, Escape.path mark = false → mark ∉ (UrlPath.segments segments).text := by
    intro mark hmark hm
    rw [mem_text_of_kept h hm] at hmark
    cases hmark
  have cut : Tail.ofText (UrlPath.segments segments).text = ⟨(UrlPath.segments segments).text, none, none⟩ := by
    unfold Tail.ofText
    rw [cutTail_of_not_mem (unmarked '#' rfl)]
    dsimp only
    rw [cutTail_of_not_mem (unmarked '?' rfl)]
  rw [whole, parse_schemed hs, countedToEnd_eq_self visible, hx, List.cons_append, List.dropWhile_cons_of_neg start,
    ← List.cons_append, ← hx]
  unfold readAfterSlashes
  rw [read]
  show Except.ok _ = _
  rw [cut, hspecial]
  dsimp only
  rw [rootedPath_of_kept hne h]
  rfl

end Url

end HostedGit
