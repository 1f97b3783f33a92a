/-
Locators that have been read. Each reader answers exactly where all of its parts are there, so coordinates are never
empty; and what a URL over HTTP gives depends on its host, its segments and its credentials alone.
-/
import HostedGit.Locator
import HostedGit.Proofs.Text.Cut
import HostedGit.Proofs.Url.Parsed

namespace HostedGit.Locator

variable {u : Url} {shown : String} {l : Locator}

/-! ## Over HTTP -/

theorem unescape_nil : unescape [] = "" := congrArg String.ofList (Utf8.decodeLossy_encode [])

theorem unescape_ne_empty {cs : List Char} (h : cs ≠ []) : unescape cs ≠ "" := by
  intro he
  refine Percent.decode_ne_nil h ?_
  rw [← String.toList_ofList (l := Percent.decode cs)]
  exact congrArg String.toList he

/-- The coordinates of a locator, none of them empty. -/
structure Placed (l : Locator) : Prop where
  organization : l.organization ≠ ""
  project : l.project ≠ ""
  repository : l.repository ≠ ""

theorem ofParts?_eq_some_iff {o p r : List Char} : ofParts? u o p r = some l ↔
    o ≠ [] ∧ p ≠ [] ∧ r ≠ [] ∧ l = ⟨unescape o, unescape p, unescape r, embeddedIn u⟩ := by
  unfold ofParts?
  constructor
  · intro h
    split at h
    · cases h
    · rename_i hne
      simp only [Bool.or_eq_true, List.isEmpty_iff, not_or] at hne
      cases h
      exact ⟨hne.1.1, hne.1.2, hne.2, rfl⟩
  · rintro ⟨ho, hp, hr, rfl⟩
    simp [ho, hp, hr]

theorem ofSharedHost?_eq_some_iff : ofSharedHost? u = some l ↔
    ∃ o p r, u.segments = [o, p, marker, r] ∧ ofParts? u o p r = some l := by
  unfold ofSharedHost?
  constructor
  · intro h
    split at h
    · rename_i o p git r hs
      split at h
      · rename_i hg
        exact ⟨o, p, r, hg ▸ hs, h⟩
      · cases h
    · cases h
  · rintro ⟨o, p, r, hs, h⟩
    rw [hs]
    dsimp only
    rw [if_pos rfl, h]

theorem ofOwnHost?_eq_some_iff {o : List Char} : ofOwnHost? u o = some l ↔
    ∃ p r, u.segments = [p, marker, r] ∧ ofParts? u o p r = some l := by
  unfold ofOwnHost?
  constructor
  · intro h
    split at h
    · rename_i p git r hs
      split at h
      · rename_i hg
        exact ⟨p, r, hg ▸ hs, h⟩
      · cases h
    · cases h
  · rintro ⟨p, r, hs, h⟩
    rw [hs]
    dsimp only
    rw [if_pos rfl, h]

/-- No organization has the host that serves all of them. -/
theorem append_ownHostEnding_ne (o : List Char) : o ++ ownHostEnding ≠ sharedHost := by
  intro he
  have long := congrArg List.length he
  rw [List.length_append, show ownHostEnding.length = 17 from rfl, show sharedHost.length = 13 from rfl] at long
  omega

/-- Either host decides how the path is read. -/
theorem ofUrl_eq_ok_iff : ofUrl shown u = .ok l ↔
    hostOf u = sharedHost ∧ ofSharedHost? u = some l ∨
      ∃ o, hostOf u = o ++ ownHostEnding ∧ ofOwnHost? u o = some l := by
  unfold ofUrl
  by_cases hh : hostOf u = sharedHost
  · rw [if_pos hh]
    constructor
    · cases hs : ofSharedHost? u with
      | none => nofun
      | some m =>
        rintro ⟨⟩
        exact .inl ⟨hh, rfl⟩
    · rintro (⟨-, hs⟩ | ⟨o, ho, -⟩)
      · rw [hs]
      · exact absurd (ho.symm.trans hh) (append_ownHostEnding_ne o)
  · rw [if_neg hh]
    constructor
    · cases hb : Text.beforeEnding? ownHostEnding (hostOf u) with
      | none => nofun
      | some o =>
        dsimp only
        cases hs : ofOwnHost? u o with
        | none => nofun
        | some m =>
          rintro ⟨⟩
          exact .inr ⟨o, Text.beforeEnding?_eq_some_iff.mp hb, hs⟩
    · rintro (⟨he, -⟩ | ⟨o, ho, hs⟩)
      · exact absurd he hh
      · rw [Text.beforeEnding?_eq_some_iff.mpr ho]
        dsimp only
        rw [hs]

/-- A URL that reads like another one, as far as the coordinates go. -/
structure Alike (u v : Url) : Prop where
  host : hostOf v = hostOf u
  segments : v.segments = u.segments

theorem ofParts?_alike {u v : Url} {organization project repository : List Char} :
    ofParts? v organization project repository =
      (ofParts? u organization project repository).map fun l => { l with embedded := embeddedIn v } := by
  unfold ofParts?
  split <;> rfl

theorem ofSharedHost?_alike {u v : Url} (h : Alike u v) :
    ofSharedHost? v = (ofSharedHost? u).map fun l => { l with embedded := embeddedIn v } := by
  unfold ofSharedHost?
  rw [h.segments]
  split
  · split
    · exact ofParts?_alike
    · rfl
  · rfl

theorem ofOwnHost?_alike {u v : Url} (h : Alike u v) (organization : List Char) :
    ofOwnHost? v organization = (ofOwnHost? u organization).map fun l => { l with embedded := embeddedIn v } := by
  unfold ofOwnHost?
  rw [h.segments]
  split
  · split
    · exact ofParts?_alike
    · rfl
  · rfl

/-- Only the credentials are read off anything but the host and the segments. -/
theorem ofUrl_alike {u v : Url} (h : Alike u v) {shown shown' : String} (hl : ofUrl shown u = .ok l) :
    ofUrl shown' v = .ok { l with embedded := embeddedIn v } := by
  refine ofUrl_eq_ok_iff.mpr ?_
  rcases ofUrl_eq_ok_iff.mp hl with ⟨hh, hs⟩ | ⟨o, hh, hs⟩
  · exact .inl ⟨h.host.trans hh, by rw [ofSharedHost?_alike h, hs]; rfl⟩
  · exact .inr ⟨o, h.host.trans hh, by rw [ofOwnHost?_alike h, hs]; rfl⟩

theorem ofUrl_ok (h : ofUrl shown u = .ok l) :
    l.Placed ∧ l.embedded = embeddedIn u := by
  have parts : ∃ o p r, ofParts? u o p r = some l := by
    rcases ofUrl_eq_ok_iff.mp h with ⟨-, hs⟩ | ⟨o, -, hs⟩
    · obtain ⟨o, p, r, -, hparts⟩ := ofSharedHost?_eq_some_iff.mp hs
      exact ⟨o, p, r, hparts⟩
    · obtain ⟨p, r, -, hparts⟩ := ofOwnHost?_eq_some_iff.mp hs
      exact ⟨o, p, r, hparts⟩
  obtain ⟨o, p, r, hparts⟩ := parts
  obtain ⟨ho, hp, hr, rfl⟩ := ofParts?_eq_some_iff.mp hparts
  exact ⟨⟨unescape_ne_empty ho, unescape_ne_empty hp, unescape_ne_empty hr⟩, rfl⟩

/-! ## Over SSH -/

theorem ofSsh?_eq_some_iff {cs : List Char} : ofSsh? cs = some l ↔
    ∃ place o p r, cs.splitOn '/' = [place, o, p, r] ∧ isSshPlace place = true ∧ o ≠ [] ∧ p ≠ [] ∧ r ≠ [] ∧
      l = ⟨.ofList o, .ofList p, .ofList r, .blank⟩ := by
  unfold ofSsh?
  constructor
  · intro h
    split at h
    · rename_i place o p r hs
      split at h
      · rename_i hc
        simp only [Bool.and_eq_true, Bool.not_eq_true', List.isEmpty_eq_false_iff] at hc
        cases h
        exact ⟨place, o, p, r, hs, hc.1.1.1, hc.1.1.2, hc.1.2, hc.2, rfl⟩
      · cases h
    · cases h
  · rintro ⟨place, o, p, r, hs, hplace, ho, hp, hr, rfl⟩
    rw [hs]
    simp [hplace, ho, hp, hr]

theorem ofSsh?_some {cs : List Char} (h : ofSsh? cs = some l) : l.Placed ∧ l.embedded = .blank := by
  obtain ⟨place, o, p, r, -, -, ho, hp, hr, rfl⟩ := ofSsh?_eq_some_iff.mp h
  have named : ∀ {cs : List Char}, cs ≠ [] → String.ofList cs ≠ "" := by
    intro cs hcs he
    refine hcs ?_
    rw [← String.toList_ofList (l := cs), he]
    rfl
  exact ⟨⟨named ho, named hp, named hr⟩, rfl⟩

/-! ## All shapes -/

/-- A repository URL is one over HTTP that is read as a URL, or it is one over SSH. -/
theorem parse_cases {url : String} (h : parse url = .ok l) :
    ("https://".toList.isPrefixOf url.toList = true ∨ "http://".toList.isPrefixOf url.toList = true) ∧
        (∃ u, Url.parse url.toList = .ok u ∧ ofUrl (redact url) u = .ok l) ∨
      ∃ place, ofSsh? place = some l := by
  have ssh : ∀ {place : List Char}, parseSsh url place = .ok l → ∃ place, ofSsh? place = some l := by
    intro place h
    unfold parseSsh at h
    cases hs : ofSsh? place with
    | none => rw [hs] at h; cases h
    | some m => rw [hs] at h; cases h; exact ⟨place, hs⟩
  unfold parse at h
  dsimp only at h
  split at h
  · rename_i hp
    left
    refine ⟨Bool.or_eq_true_iff.mp hp, ?_⟩
    unfold parseHttp at h
    cases hu : Url.parse url.toList with
    | error e => rw [hu] at h; cases h
    | ok u => rw [hu] at h; exact ⟨u, rfl, h⟩
  split at h
  · exact .inr (ssh h)
  split at h
  · exact .inr (ssh h)
  · cases h

theorem eq_ok_of_toOption {ε α : Type} {x : Except ε α} {a : α} (h : x.toOption = some a) : x = .ok a := by
  cases x with
  | error e => cases h
  | ok b => cases h; rfl

/-- The coordinates of a repository are never empty. -/
theorem placed_of_parse {url : String} (h : parse url = .ok l) : l.Placed := by
  rcases parse_cases h with ⟨-, u, -, hu⟩ | ⟨place, hs⟩
  · exact (ofUrl_ok hu).1
  · exact (ofSsh?_some hs).1

end HostedGit.Locator
