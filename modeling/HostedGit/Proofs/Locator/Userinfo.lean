/-
Userinfos in the text of a URL over HTTP. Any userinfo, after any characters that are passed over before an
authority, may stand in place of another one: what is read then differs in nothing but the credentials. And
a password that is read stands in the text, between the first `:` and the last `@` of such a userinfo.
-/
import HostedGit.Proofs.Locator
import HostedGit.Proofs.Url.Authority

namespace HostedGit

open Url (Inside authorityOf counted countedToEnd)

namespace Locator

variable {scheme lead lead' userinfo userinfo' after : List Char} {l : Locator}

/-! ## What is passed over -/

/-- A character that is passed over between a scheme and an authority. -/
def isPassed (c : Char) : Bool := Url.isSlash true c || Url.isIgnored c

theorem passed_nil : ∀ c ∈ ([] : List Char), isPassed c = true := fun _ hc => absurd hc List.not_mem_nil

/-- What is read after a scheme and a lead. -/
theorem dropWhile_countedToEnd (hl : ∀ c ∈ lead, isPassed c = true) (hu : Inside userinfo) :
    (countedToEnd (lead ++ userinfo ++ '@' :: after)).dropWhile (Url.isSlash true) =
      counted userinfo ++ '@' :: countedToEnd after := by
  have slashes : ∀ c ∈ counted lead, Url.isSlash true c = true := by
    intro c hc
    obtain ⟨hm, hi⟩ := Url.mem_counted.mp hc
    have := hl c hm
    rw [isPassed, hi, Bool.or_false] at this
    exact this
  rw [Url.countedToEnd_append_cons rfl, Url.counted_append, List.append_assoc,
    List.dropWhile_append_of_pos slashes]
  cases hc : counted userinfo with
  | nil => rfl
  | cons c cs =>
    have := hu.counted.not_isSlash c (hc ▸ List.mem_cons_self)
    exact List.dropWhile_cons_of_neg (Bool.eq_false_iff.mp this)

/-- What is read after a scheme stands in the text after a lead. -/
theorem exists_of_dropWhile_countedToEnd {rest shown shownAfter : List Char}
    (h : (countedToEnd rest).dropWhile (Url.isSlash true) = shown ++ '@' :: shownAfter) :
    ∃ lead userinfo after, rest = lead ++ userinfo ++ '@' :: after ∧ (∀ c ∈ lead, isPassed c = true) ∧
      counted userinfo = shown ∧ countedToEnd after = shownAfter := by
  have whole : countedToEnd rest =
      ((countedToEnd rest).takeWhile (Url.isSlash true) ++ shown) ++ '@' :: shownAfter := by
    conv_lhs => rw [← List.takeWhile_append_dropWhile (p := Url.isSlash true) (l := countedToEnd rest), h]
    exact (List.append_assoc _ _ _).symm
  obtain ⟨front, after, hrest, hfront, hafter⟩ := Url.exists_of_countedToEnd rfl whole
  obtain ⟨lead, userinfo, rfl, hlead, hshown⟩ := Url.exists_of_counted_append hfront
  refine ⟨lead, userinfo, after, hrest, fun c hc => ?_, hshown, hafter⟩
  unfold isPassed
  cases hi : Url.isIgnored c with
  | true => exact Bool.or_true _
  | false =>
    have hm := Url.mem_counted.mpr ⟨hc, hi⟩
    rw [hlead] at hm
    rw [List.mem_takeWhile_imp hm]
    rfl

/-! ## Other userinfos -/

/-- The credentials that a userinfo gives. -/
def credentialsIn (cs : List Char) : Credentials :=
  ⟨unescape (Url.readUserinfo (counted cs)).1, unescape (Url.readUserinfo (counted cs)).2⟩

theorem credentialsIn_nil : credentialsIn [] = .blank :=
  Credentials.mk.injEq _ _ _ _ ▸ ⟨unescape_nil, unescape_nil⟩

/-- A URL over HTTP is read off what follows its scheme. -/
theorem parse_schemed_iff (hs : Scheme.isHttp scheme = true) (rest : List Char) :
    parse (String.ofList (scheme ++ "://".toList ++ rest)) = .ok l ↔
      ∃ u, Url.readAfterSlashes scheme ((countedToEnd rest).dropWhile (Url.isSlash true)) = .ok u ∧
        ofUrl (redact (String.ofList (scheme ++ "://".toList ++ rest))) u = .ok l := by
  have http : ("https://".toList.isPrefixOf (scheme ++ "://".toList ++ rest) ||
      "http://".toList.isPrefixOf (scheme ++ "://".toList ++ rest)) = true := by
    rcases Scheme.eq_of_isHttp hs with rfl | rfl <;> rfl
  have htext := String.toList_ofList (l := scheme ++ "://".toList ++ rest)
  generalize String.ofList (scheme ++ "://".toList ++ rest) = raw at htext ⊢
  unfold parse parseHttp
  dsimp only
  rw [htext, if_pos http, Url.parse_schemed hs]
  cases Url.readAfterSlashes scheme ((countedToEnd rest).dropWhile (Url.isSlash true)) with
  | error e => exact ⟨nofun, fun ⟨_, h, _⟩ => nomatch h⟩
  | ok u =>
    constructor
    · exact fun h => ⟨u, rfl, h⟩
    · rintro ⟨_, he, h⟩
      cases he
      exact h

theorem host_ne_nil_of_ofUrl {u : Url} {shown : String} (h : ofUrl shown u = .ok l) :
    ∀ a, u.authority = some a → a.host ≠ [] := by
  intro a ha hn
  have hh : hostOf u = [] := by
    unfold hostOf
    rw [ha]
    exact hn
  unfold ofUrl at h
  rw [hh] at h
  cases h

/-- Another userinfo after another lead only changes the credentials. -/
theorem parse_userinfo (hs : Scheme.isHttp scheme = true) (hl : ∀ c ∈ lead, isPassed c = true)
    (hl' : ∀ c ∈ lead', isPassed c = true) (hu : Inside userinfo) (hu' : Inside userinfo')
    (ha : '@' ∉ authorityOf after)
    (h : parse (String.ofList (scheme ++ "://".toList ++ (lead ++ userinfo ++ '@' :: after))) = .ok l) :
    parse (String.ofList (scheme ++ "://".toList ++ (lead' ++ userinfo' ++ '@' :: after))) =
      .ok { l with embedded := credentialsIn userinfo' } := by
  obtain ⟨u, hr, hok⟩ := (parse_schemed_iff hs _).mp h
  have hspecial := Scheme.isSpecial_of_isHttp hs
  have ha' : '@' ∉ authorityOf (countedToEnd after) := mt (Url.mem_authorityOf_countedToEnd rfl).mp ha
  -- behind the lead, the two texts differ in nothing but the userinfo
  rw [dropWhile_countedToEnd hl hu] at hr
  have hr' := Url.readAfterSlashes_withUserinfo hspecial hu.counted hu'.counted ha' hr
    (host_ne_nil_of_ofUrl hok)
  obtain ⟨a, rest, -, rfl⟩ := Url.readAfterSlashes_ok hr
  refine (parse_schemed_iff hs _).mpr ⟨_, by rw [dropWhile_countedToEnd hl' hu']; exact hr', ?_⟩
  refine (ofUrl_alike ?_ hok).trans rfl
  exact ⟨rfl, rfl⟩

theorem parse_without_userinfo (hs : Scheme.isHttp scheme = true) (hl : ∀ c ∈ lead, isPassed c = true)
    (hu : Inside userinfo) (ha : '@' ∉ authorityOf after)
    (h : parse (String.ofList (scheme ++ "://".toList ++ (lead ++ userinfo ++ '@' :: after))) = .ok l) :
    parse (String.ofList (scheme ++ "://".toList ++ '@' :: after)) = .ok { l with embedded := .blank } := by
  have other := parse_userinfo hs hl passed_nil hu Url.inside_nil ha h
  rw [credentialsIn_nil] at other
  exact other

theorem embedded_of_parse (hs : Scheme.isHttp scheme = true) (hl : ∀ c ∈ lead, isPassed c = true)
    (hu : Inside userinfo) (ha : '@' ∉ authorityOf after)
    (h : parse (String.ofList (scheme ++ "://".toList ++ (lead ++ userinfo ++ '@' :: after))) = .ok l) :
    l.embedded = credentialsIn userinfo := by
  have same := parse_userinfo hs hl hl hu hu ha h
  rw [h] at same
  exact congrArg Locator.embedded (Except.ok.inj same)

/-! ## Passwords in a text -/

/-- How a password stands in a URL over HTTP: after the first `:` of the last userinfo. -/
structure Carries (raw : String) (scheme lead user password after : List Char) : Prop where
  text : raw = String.ofList (scheme ++ "://".toList ++ (lead ++ (user ++ ':' :: password) ++ '@' :: after))
  http : Scheme.isHttp scheme = true
  lead : ∀ c ∈ lead, isPassed c = true
  colon : ':' ∉ user
  inside : Inside (user ++ ':' :: password)
  last : '@' ∉ authorityOf after

theorem exists_schemed {raw : String} (h : "https://".toList.isPrefixOf raw.toList = true ∨
    "http://".toList.isPrefixOf raw.toList = true) :
    ∃ scheme rest, Scheme.isHttp scheme = true ∧ raw = String.ofList (scheme ++ "://".toList ++ rest) := by
  rcases h with h | h <;> obtain ⟨rest, hr⟩ := List.isPrefixOf_iff_prefix.mp h
  · exact ⟨"https".toList, rest, rfl, by rw [← String.ofList_toList (s := raw), ← hr]; rfl⟩
  · exact ⟨"http".toList, rest, rfl, by rw [← String.ofList_toList (s := raw), ← hr]; rfl⟩

theorem password_ne_nil_of_ofUrl {u : Url} {shown : String} (h : ofUrl shown u = .ok l)
    (hp : l.embedded.password ≠ "") : ∃ a, u.authority = some a ∧ a.password ≠ [] := by
  rw [(ofUrl_ok h).2] at hp
  unfold embeddedIn at hp
  cases ha : u.authority with
  | none => rw [ha] at hp; exact absurd rfl hp
  | some a =>
    rw [ha] at hp
    refine ⟨a, rfl, fun hn => hp ?_⟩
    dsimp only
    rw [hn, unescape_nil]

/-- A password that has been read stands in the URL. -/
theorem exists_carries {raw : String} (h : parse raw = .ok l) (hp : l.embedded.password ≠ "") :
    ∃ scheme lead user password after, Carries raw scheme lead user password after := by
  rcases parse_cases h with ⟨hhttp, -⟩ | ⟨place, hssh⟩
  swap
  · rw [(ofSsh?_some hssh).2] at hp
    exact absurd rfl hp
  obtain ⟨scheme, rest, hs, rfl⟩ := exists_schemed hhttp
  obtain ⟨u, hr, hok⟩ := (parse_schemed_iff hs _).mp h
  obtain ⟨shownUser, shownPassword, shownAfter, hcut, hcolon, hinside, hlast⟩ :=
    Url.exists_of_password (Scheme.isSpecial_of_isHttp hs) hr (password_ne_nil_of_ofUrl hok hp)
  -- what counts is cut at `@` and at `:`, and so is the text
  obtain ⟨lead, userinfo, after, rfl, hlead, hshown, hafter⟩ := exists_of_dropWhile_countedToEnd hcut
  obtain ⟨user, password, rfl, huser, -⟩ := Url.exists_of_counted hshown
  refine ⟨scheme, lead, user, password, after, rfl, hs, hlead, ?_, ?_, ?_⟩
  · intro hm
    exact hcolon (huser ▸ Url.mem_counted.mpr ⟨hm, rfl⟩)
  · intro c hc
    by_contra he
    have hi := Url.isIgnored_of_endsAuthority ((Bool.not_eq_false _).mp he)
    exact he (hinside c (hshown ▸ Url.mem_counted.mpr ⟨hc, hi⟩))
  · rw [← hafter, Url.mem_authorityOf_countedToEnd rfl] at hlast
    exact hlast

/-- The credentials that a URL carries. -/
theorem Carries.embedded {raw : String} {user password : List Char} (hc : Carries raw scheme lead user password after)
    (h : parse raw = .ok l) : l.embedded = credentialsIn (user ++ ':' :: password) := by
  rw [hc.text] at h
  exact embedded_of_parse hc.http hc.lead hc.inside hc.last h

/-! ## Usernames and passwords -/

/-- The text that a username or password in a URL stands for. -/
def named (cs : List Char) : String := unescape (Percent.encode Url.Escape.userinfo (counted cs))

theorem credentialsIn_append_cons {user : List Char} (h : ':' ∉ user) (password : List Char) :
    credentialsIn (user ++ ':' :: password) = ⟨named user, named password⟩ := by
  have hc : ':' ∉ counted user := fun hm => h (Url.mem_counted.mp hm).1
  have cut : counted (user ++ ':' :: password) = counted user ++ ':' :: counted password := Url.counted_append _ _
  unfold credentialsIn named
  rw [cut, Url.readUserinfo_append_cons hc]

theorem named_mask : named "***".toList = "***" := by decide +kernel

end Locator

end HostedGit
