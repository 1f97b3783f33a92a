/-
Authorities with credentials. What stands before the last `@` is read as username and password, and what
follows it as host and port, whatever the credentials are: other credentials in their place leave the rest
of the URL as it is.
-/
import HostedGit.Proofs.Text.Cut
import HostedGit.Proofs.Url.Clean

namespace HostedGit.Url

variable {scheme userinfo after : List Char} {a : Authority} {rest : List Char}

/-- A text that an authority can hold. -/
def Inside (cs : List Char) : Prop := ∀ c ∈ cs, endsAuthority true c = false

theorem inside_nil : Inside [] := fun _ hc => absurd hc List.not_mem_nil

/-- The part of a text that an authority can hold. -/
def authorityOf (cs : List Char) : List Char := cs.takeWhile (!endsAuthority true ·)

theorem inside_authorityOf (cs : List Char) : Inside (authorityOf cs) := fun _ hc =>
  (Bool.not_eq_true' _).mp (List.mem_takeWhile_imp (p := (!endsAuthority true ·)) hc)

theorem Inside.not_isSlash (h : Inside userinfo) : ∀ c ∈ userinfo, isSlash true c = false := by
  intro c hc
  have := h c hc
  unfold endsAuthority at this
  simp only [Bool.or_eq_false_iff] at this
  exact this.1.1

theorem Inside.counted (h : Inside userinfo) : Inside (counted userinfo) := fun c hc =>
  h c (mem_counted.mp hc).1

theorem isIgnored_of_endsAuthority {c : Char} (h : endsAuthority true c = true) : isIgnored c = false := by
  refine Bool.eq_false_iff.mpr fun hi => ?_
  unfold isIgnored at hi
  simp only [Bool.or_eq_true, decide_eq_true_eq] at hi
  rcases hi with (rfl | rfl) | rfl <;> cases h

theorem mem_authorityOf_countedToEnd {c : Char} (hc : isBlank c = false) :
    c ∈ authorityOf (countedToEnd after) ↔ c ∈ authorityOf after :=
  mem_takeWhile_countedToEnd
    (fun _ hx => isIgnored_of_endsAuthority ((Bool.not_eq_false' _).mp hx)) hc

theorem Inside.takeWhile_append (h : Inside userinfo) :
    (userinfo ++ '@' :: after).takeWhile (!endsAuthority true ·) = userinfo ++ '@' :: authorityOf after := by
  rw [List.takeWhile_append_of_pos fun c hc => by rw [h c hc]; rfl]
  rfl

theorem Inside.dropWhile_append (h : Inside userinfo) :
    (userinfo ++ '@' :: after).dropWhile (!endsAuthority true ·) = after.dropWhile (!endsAuthority true ·) := by
  rw [List.dropWhile_append_of_pos fun c hc => by rw [h c hc]; rfl]
  rfl

theorem authorityOf_append_cons {c : Char} (h : Inside userinfo) (hc : endsAuthority true c = true) (rest : List Char) :
    authorityOf (userinfo ++ c :: rest) = userinfo ∧
      (userinfo ++ c :: rest).dropWhile (!endsAuthority true ·) = c :: rest := by
  have inside : ∀ x ∈ userinfo, (!endsAuthority true x) = true := fun x hx => by simp [h x hx]
  unfold authorityOf
  rw [List.takeWhile_append_of_pos inside, List.dropWhile_append_of_pos inside]
  simp [hc]

/-! ## Host and port -/

theorem readPlace_nil (hs : Scheme.isSpecial scheme = true) : readPlace scheme [] = .error .emptyHost := by
  unfold readPlace
  rw [hs]
  rfl

/-- Credentials and place are read independently of each other. -/
theorem readAuthority_iff (hs : Scheme.isSpecial scheme = true) (hu : Inside userinfo) (ha : '@' ∉ authorityOf after)
    (hne : a.host ≠ []) :
    readAuthority scheme (userinfo ++ '@' :: after) = .ok (a, rest) ↔
      readUserinfo userinfo = (a.username, a.password) ∧
        ∃ left, readPlace scheme (authorityOf after) = .ok (a.host, a.port, left) ∧
          rest = left ++ after.dropWhile (!endsAuthority true ·) := by
  have cut : cutUserinfo (userinfo ++ '@' :: authorityOf after) = (some userinfo, authorityOf after) := by
    unfold cutUserinfo
    rw [Text.cutLast?_append_cons ha]
  -- an empty place is refused by itself, so the check on an empty userinfo never decides
  have place : (authorityOf after).isEmpty = true → readPlace scheme (authorityOf after) = .error .emptyHost := by
    intro he
    rw [List.isEmpty_iff.mp he, readPlace_nil hs]
  unfold readAuthority
  dsimp only
  rw [hs, hu.takeWhile_append, hu.dropWhile_append, cut]
  dsimp only [Option.getD_some]
  constructor
  · intro h
    split at h
    · cases h
    cases hr : readPlace scheme (authorityOf after) with
    | error e => rw [hr] at h; cases h
    | ok p =>
      rw [hr] at h
      dsimp only at h
      split at h
      · cases h
      · cases h
        exact ⟨rfl, _, rfl, rfl⟩
  · rintro ⟨hc, left, hr, rfl⟩
    have hm : ¬ (decide (some userinfo = some []) && (authorityOf after).isEmpty &&
        !(after.dropWhile (!endsAuthority true ·)).isEmpty) = true := by
      intro hm
      simp only [Bool.and_eq_true] at hm
      rw [place hm.1.2] at hr
      cases hr
    rw [if_neg hm, hr]
    refine (if_neg ?_).trans (by rw [hc])
    rw [List.isEmpty_eq_false_iff.mpr hne]
    exact Bool.false_ne_true

/-! ## Credentials -/

theorem readUserinfo_append_cons {user password : List Char} (h : ':' ∉ user) :
    readUserinfo (user ++ ':' :: password) =
      (Percent.encode Escape.userinfo user, Percent.encode Escape.userinfo password) := by
  unfold readUserinfo cutTail
  rw [Text.cut?_append_cons h]
  rfl

/-- A URL with the credentials that a userinfo gives. -/
def withUserinfo (u : Url) (cs : List Char) : Url :=
  { u with authority := u.authority.map fun a =>
      { a with username := (readUserinfo cs).1, password := (readUserinfo cs).2 } }

/-- Another userinfo only changes the credentials. -/
theorem readAfterSlashes_withUserinfo {u : Url} {userinfo' : List Char} (hs : Scheme.isSpecial scheme = true)
    (hu : Inside userinfo) (hu' : Inside userinfo') (ha : '@' ∉ authorityOf after)
    (h : readAfterSlashes scheme (userinfo ++ '@' :: after) = .ok u) (hne : ∀ a, u.authority = some a → a.host ≠ []) :
    readAfterSlashes scheme (userinfo' ++ '@' :: after) = .ok (u.withUserinfo userinfo') := by
  obtain ⟨a, rest, hr, rfl⟩ := readAfterSlashes_ok h
  have hne : a.host ≠ [] := hne a rfl
  obtain ⟨-, hplace⟩ := (readAuthority_iff hs hu ha hne).mp hr
  let b : Authority := { a with username := (readUserinfo userinfo').1, password := (readUserinfo userinfo').2 }
  have hr' : readAuthority scheme (userinfo' ++ '@' :: after) = .ok (b, rest) :=
    (readAuthority_iff (a := b) hs hu' ha hne).mpr ⟨rfl, hplace⟩
  unfold readAfterSlashes
  rw [hr']
  rfl

/-- A password that has been read stands between a `:` and the last `@` of the authority. -/
theorem exists_of_password {cs : List Char} {u : Url} (hs : Scheme.isSpecial scheme = true)
    (h : readAfterSlashes scheme cs = .ok u) (hp : ∃ a, u.authority = some a ∧ a.password ≠ []) :
    ∃ user password after, cs = user ++ ':' :: password ++ '@' :: after ∧ ':' ∉ user ∧
      Inside (user ++ ':' :: password) ∧ '@' ∉ authorityOf after := by
  obtain ⟨a, rest, hr, rfl⟩ := readAfterSlashes_ok h
  obtain ⟨_, he, hp⟩ := hp
  cases he
  have hpassword : (readUserinfo ((cutUserinfo (authorityOf cs)).1.getD [])).2 ≠ [] := by
    unfold readAuthority at hr
    dsimp only at hr
    rw [hs] at hr
    split at hr
    · cases hr
    split at hr
    · cases hr
    split at hr
    · cases hr
    cases hr
    exact hp
  cases hat : Text.cutLast? '@' (authorityOf cs) with
  | none =>
    unfold cutUserinfo at hpassword
    rw [hat] at hpassword
    exact absurd rfl hpassword
  | some p =>
    obtain ⟨userinfo, place⟩ := p
    unfold cutUserinfo at hpassword
    rw [hat] at hpassword
    cases hcolon : Text.cut? ':' userinfo with
    | none =>
      unfold readUserinfo cutTail at hpassword
      dsimp only [Option.getD_some] at hpassword
      rw [hcolon] at hpassword
      exact absurd rfl hpassword
    | some q =>
      obtain ⟨user, password⟩ := q
      obtain ⟨hcut, hplace⟩ := Text.cutLast?_some hat
      obtain ⟨rfl, huser⟩ := Text.cut?_some hcolon
      have hinside : Inside (user ++ ':' :: password) := fun c hc =>
        inside_authorityOf cs c (hcut ▸ List.mem_append_left _ hc)
      have hsplit : cs.takeWhile (!endsAuthority true ·) = (user ++ ':' :: password ++ ['@']) ++ place :=
        hcut.trans (List.append_cons _ _ _)
      obtain ⟨whole, hafter⟩ := Text.takeWhile_eq_append hsplit
      refine ⟨user, password, _, whole.trans (List.append_cons _ _ _).symm, huser, hinside, ?_⟩
      unfold authorityOf
      rw [hafter]
      exact hplace

end HostedGit.Url
