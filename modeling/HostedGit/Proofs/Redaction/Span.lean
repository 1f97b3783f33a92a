/-
What redaction hides: one span of the text and nothing else. Between the first `://` of a text and the next `/`, `?`
or `#`, the span lies between the first `:` and the last `@`; whatever stands there, the redacted text is the same,
and redacting it again changes nothing.
-/
import HostedGit.Proofs.Text.Cut
import HostedGit.Redaction
import Mathlib.Data.List.Infix

namespace HostedGit

namespace Redaction

variable {cs front user password rest userinfo after : List Char}

/-! ## The scheme -/

/-- A text that ends with its first `://`. -/
def EndsScheme (front : List Char) : Prop :=
  ∃ scheme, front = scheme ++ "://".toList ∧ ¬ "://".toList <:+: scheme ++ ":/".toList

theorem splitScheme?_eq_some_iff : splitScheme? cs = some (front, rest) ↔ cs = front ++ rest ∧ EndsScheme front := by
  constructor
  · intro h
    induction cs generalizing front with
    | nil => cases h
    | cons c cs ih =>
      unfold splitScheme? at h
      split at h
      · rename_i here
        obtain ⟨tail, he⟩ := List.isPrefixOf_iff_prefix.mp here
        cases h
        cases he
        exact ⟨rfl, [], rfl, by decide⟩
      · rename_i here
        obtain ⟨⟨later, tail⟩, hp, he⟩ := Option.map_eq_some_iff.mp h
        obtain ⟨rfl, rfl⟩ := Prod.mk.inj he
        obtain ⟨rfl, scheme, rfl, hfirst⟩ := ih hp
        refine ⟨rfl, c :: scheme, rfl, ?_⟩
        rw [List.cons_append, List.infix_cons_iff, not_or]
        refine ⟨fun hstart => here (List.isPrefixOf_iff_prefix.mpr (hstart.trans ?_)), hfirst⟩
        exact ⟨'/' :: tail, by simp⟩
  · rintro ⟨rfl, scheme, rfl, hfirst⟩
    induction scheme with
    | nil => rfl
    | cons c scheme ih =>
      rw [List.cons_append, List.infix_cons_iff, not_or] at hfirst
      have later : ¬ "://".toList.isPrefixOf (c :: (scheme ++ "://".toList ++ rest)) = true := by
        intro hstart
        refine hfirst.1 (List.prefix_of_prefix_length_le (List.isPrefixOf_iff_prefix.mp hstart) ⟨'/' :: rest, ?_⟩ ?_)
        · simp
        · simp
      rw [List.cons_append, List.cons_append, splitScheme?, if_neg later, ih hfirst.2]
      rfl

/-! ## The userinfo -/

/-- A text without a character at which an authority ends. -/
def Within (cs : List Char) : Prop := ∀ c ∈ cs, endsAuthority c = false

instance (cs : List Char) : Decidable (Within cs) := List.decidableBAll (endsAuthority · = false) cs

theorem Within.kept (h : Within cs) : ∀ c ∈ cs, (!endsAuthority c) = true := fun c hc => by rw [h c hc]; rfl

theorem cutUserinfo?_eq_some_iff : cutUserinfo? cs = some (front, userinfo, after) ↔
    cs = front ++ (userinfo ++ '@' :: after) ∧ EndsScheme front ∧ Within userinfo ∧
      '@' ∉ after.takeWhile (!endsAuthority ·) := by
  constructor
  · intro h
    unfold cutUserinfo? at h
    split at h
    · cases h
    rename_i scheme rest hs
    split at h
    · cases h
    rename_i user host hc
    cases h
    obtain ⟨rfl, hfront⟩ := splitScheme?_eq_some_iff.mp hs
    obtain ⟨htaken, hhost⟩ := Text.cutLast?_some hc
    obtain ⟨hrest, hafter⟩ := Text.takeWhile_eq_append (htaken.trans (List.append_cons _ _ _))
    refine ⟨?_, hfront, fun c hm => ?_, by rwa [hafter]⟩
    · rw [List.append_cons, ← hrest]
    · have taken : c ∈ rest.takeWhile (!endsAuthority ·) := htaken ▸ List.mem_append_left _ hm
      exact (Bool.not_eq_true' _).mp (List.mem_takeWhile_imp (p := (!endsAuthority ·)) taken)
  · rintro ⟨rfl, hfront, hu, hlast⟩
    have taken : (userinfo ++ '@' :: after).takeWhile (!endsAuthority ·) =
        userinfo ++ '@' :: after.takeWhile (!endsAuthority ·) := by
      rw [List.takeWhile_append_of_pos hu.kept]
      rfl
    have dropped : (userinfo ++ '@' :: after).dropWhile (!endsAuthority ·) = after.dropWhile (!endsAuthority ·) := by
      rw [List.dropWhile_append_of_pos hu.kept]
      rfl
    unfold cutUserinfo?
    rw [splitScheme?_eq_some_iff.mpr ⟨rfl, hfront⟩]
    dsimp only
    rw [taken, Text.cutLast?_append_cons hlast]
    dsimp only
    rw [dropped, List.takeWhile_append_dropWhile]

/-! ## The password -/

/-- A text with a password to hide: what leads to it, and what follows it. -/
structure Span (cs front user password rest : List Char) : Prop where
  text : cs = front ++ user ++ ':' :: password ++ '@' :: rest
  front : EndsScheme front
  user : Within user ∧ ':' ∉ user
  password : Within password
  rest : '@' ∉ rest.takeWhile (!endsAuthority ·)

theorem span_iff : Span cs front user password rest ↔
    cutUserinfo? cs = some (front, user ++ ':' :: password, rest) ∧ ':' ∉ user := by
  rw [cutUserinfo?_eq_some_iff]
  constructor
  · intro h
    refine ⟨⟨?_, h.front, fun c hc => ?_, h.rest⟩, h.user.2⟩
    · rw [h.text]
      simp only [List.append_assoc, List.cons_append]
    · rcases List.mem_append.mp hc with hc | hc
      · exact h.user.1 c hc
      · rcases List.mem_cons.mp hc with rfl | hc
        · rfl
        · exact h.password c hc
  · rintro ⟨⟨rfl, hfront, hu, hlast⟩, hcolon⟩
    refine ⟨?_, hfront, ⟨fun c hc => hu c (List.mem_append_left _ hc), hcolon⟩, fun c hc => ?_, hlast⟩
    · simp only [List.append_assoc, List.cons_append]
    · exact hu c (List.mem_append_right _ (List.mem_cons_of_mem _ hc))

/-- There is one place for the password only. -/
theorem Span.unique {front' user' password' rest' : List Char} (h : Span cs front user password rest)
    (h' : Span cs front' user' password' rest') :
    front' = front ∧ user' = user ∧ password' = password ∧ rest' = rest := by
  obtain ⟨hcut, hcolon⟩ := span_iff.mp h
  obtain ⟨hcut', hcolon'⟩ := span_iff.mp h'
  simp only [hcut, Option.some.injEq, Prod.mk.injEq] at hcut'
  obtain ⟨rfl, huser, rfl⟩ := hcut'
  -- the first `:` tells where the password begins
  have same : some (user', password') = some (user, password) := by
    rw [← Text.cut?_append_cons hcolon', ← huser, Text.cut?_append_cons hcolon]
  cases same
  exact ⟨rfl, rfl, rfl, rfl⟩

/-- Another password takes the place of one. -/
theorem Span.other (h : Span cs front user password rest) {password' : List Char} (hp : Within password') :
    Span (front ++ user ++ ':' :: password' ++ '@' :: rest) front user password' rest :=
  ⟨rfl, h.front, h.user, hp, h.rest⟩

theorem Span.maskPassword (h : Span cs front user password rest) :
    maskPassword cs = front ++ user ++ ":***@".toList ++ rest := by
  obtain ⟨hcut, hcolon⟩ := span_iff.mp h
  unfold Redaction.maskPassword
  rw [hcut]
  dsimp only
  rw [Text.cut?_append_cons hcolon]

/-- A text is left alone unless it has a password. -/
theorem maskPassword_cases (cs : List Char) :
    maskPassword cs = cs ∨ ∃ front user password rest, Span cs front user password rest := by
  unfold maskPassword
  split
  · exact .inl rfl
  · rename_i front userinfo rest hcut
    split
    · exact .inl rfl
    · rename_i user password hfound
      obtain ⟨rfl, hcolon⟩ := Text.cut?_some hfound
      exact .inr ⟨front, user, password, rest, span_iff.mpr ⟨hcut, hcolon⟩⟩

theorem maskPassword_maskPassword (cs : List Char) : maskPassword (maskPassword cs) = maskPassword cs := by
  rcases maskPassword_cases cs with h | ⟨front, user, password, rest, span⟩
  · rw [h, h]
  · have masked : Span (front ++ user ++ ':' :: "***".toList ++ '@' :: rest) front user "***".toList rest :=
      span.other (by decide)
    have text : front ++ user ++ ":***@".toList ++ rest = front ++ user ++ ':' :: "***".toList ++ '@' :: rest := by
      simp
    rw [span.maskPassword, text, masked.maskPassword, text]

/-- Redacting a text again changes nothing. A text is left alone, or it has a password: some text without `/`, `?` and
`#`, between the first `:` after the first `://` and the last `@` before the next `/`, `?` or `#`, and the password is
written as `***`. There is one such password at most; and with any other in its place, the redacted text is the same. -/
theorem redact_hides_span (s : String) :
    redact (redact s) = redact s ∧
    (redact s = s ∨ ∃ front user password rest, Span s.toList front user password rest ∧
      redact s = String.ofList (front ++ user ++ ":***@".toList ++ rest)) ∧
    ∀ front user password rest, Span s.toList front user password rest →
      (∀ front' user' password' rest', Span s.toList front' user' password' rest' →
        front' = front ∧ user' = user ∧ password' = password ∧ rest' = rest) ∧
      ∀ password', Within password' →
        redact (String.ofList (front ++ user ++ ':' :: password' ++ '@' :: rest)) = redact s := by
  refine ⟨?_, ?_, fun front user password rest span => ⟨fun _ _ _ _ => span.unique, fun password' hp => ?_⟩⟩
  · unfold redact
    rw [String.toList_ofList, maskPassword_maskPassword]
  · unfold redact
    rcases maskPassword_cases s.toList with h | ⟨front, user, password, rest, span⟩
    · exact .inl (by rw [h, String.ofList_toList])
    · exact .inr ⟨front, user, password, rest, span, congrArg String.ofList span.maskPassword⟩
  · unfold redact
    rw [String.toList_ofList, (span.other hp).maskPassword, span.maskPassword]

/-- Marks of userinfo and of paths before the password, within it and behind it. -/
theorem redact_hides_span_nested :
    let s := "x:/://a@b:p:q@r@h/z@y"
    Span s.toList "x:/://".toList "a@b".toList "p:q@r".toList "h/z@y".toList ∧ Within "".toList ∧
      redact s = "x:/://a@b:***@h/z@y" ∧ redact (redact s) = redact s ∧ redact "x:/://a@b:@h/z@y" = redact s := by
  intro s
  have span : Span s.toList "x:/://".toList "a@b".toList "p:q@r".toList "h/z@y".toList :=
    ⟨by decide, ⟨"x:/".toList, rfl, by decide⟩, by decide, by decide, by decide⟩
  have hidden : Within "".toList := by decide
  obtain ⟨again, -, only⟩ := redact_hides_span s
  exact ⟨span, hidden, by decide, again, (only _ _ _ _ span).2 "".toList hidden⟩

end Redaction

end HostedGit
