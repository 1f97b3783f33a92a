/-
The host of a repository URL as it stands in the text. What counts of it is what the host is read off, so
as far as it ends in small letters, digits and dots, the host that is read ends alike.
-/
import HostedGit.Proofs.Locator.Userinfo
import HostedGit.Proofs.Url.Host

namespace HostedGit

open Url (Inside authorityOf counted countedToEnd)

namespace Url

variable {scheme cs rest : List Char} {u : Url}

/-! ## What counts of an authority -/

theorem counted_cons {c : Char} (hi : isIgnored c = false) (cs : List Char) : counted (c :: cs) = c :: counted cs :=
  List.filter_cons_of_pos (by rw [hi]; rfl)

theorem counted_cons_of_ignored {c : Char} (hi : isIgnored c = true) (cs : List Char) :
    counted (c :: cs) = counted cs :=
  List.filter_cons_of_neg (by rw [hi]; decide)

theorem cutUserinfo_counted (cs : List Char) :
    cutUserinfo (counted cs) = ((cutUserinfo cs).1.map counted, counted (cutUserinfo cs).2) := by
  unfold cutUserinfo
  cases hc : Text.cutLast? '@' cs with
  | none =>
    have absent := Text.cutLast?_eq_none_iff.mp hc
    rw [Text.cutLast?_eq_none_iff.mpr fun hm => absent (mem_counted.mp hm).1]
    rfl
  | some p =>
    obtain ⟨userinfo, place⟩ := p
    obtain ⟨rfl, hplace⟩ := Text.cutLast?_some hc
    have shown : counted (userinfo ++ '@' :: place) = counted userinfo ++ '@' :: counted place := counted_append _ _
    rw [shown, Text.cutLast?_append_cons fun hm => hplace (mem_counted.mp hm).1]
    rfl

theorem cutHost_cons {inside : Bool} {c : Char} (h : c ≠ ':' ∨ inside = true) (cs : List Char) :
    cutHost inside (c :: cs) = (c :: (cutHost (c = '[' || (inside && c ≠ ']')) cs).1,
      (cutHost (c = '[' || (inside && c ≠ ']')) cs).2) := by
  refine if_neg ?_
  rcases h with h | h <;> simp [h]

theorem cutHost_counted (inside : Bool) (cs : List Char) :
    cutHost inside (counted cs) = (counted (cutHost inside cs).1, counted (cutHost inside cs).2) := by
  induction cs generalizing inside with
  | nil => rfl
  | cons c cs ih =>
    by_cases hi : isIgnored c = true
    · -- an ignored character is neither a colon nor a bracket
      have marks : c ≠ ':' ∧ c ≠ '[' ∧ c ≠ ']' := by
        refine ⟨?_, ?_, ?_⟩ <;> rintro rfl <;> revert hi <;> decide
      have same : (decide (c = '[') || (inside && decide (c ≠ ']'))) = inside := by simp [marks]
      rw [cutHost_cons (.inl marks.1), same, counted_cons_of_ignored hi, counted_cons_of_ignored hi, ih]
    · have hi := Bool.eq_false_iff.mpr hi
      rw [counted_cons hi]
      by_cases hc : c ≠ ':' ∨ inside = true
      · rw [cutHost_cons hc, cutHost_cons hc, ih, counted_cons hi]
      · have colon : c = ':' ∧ inside = false := by simpa using hc
        obtain ⟨rfl, rfl⟩ := colon
        simp [cutHost, counted_cons hi]
        rfl

/-! ## Reading the host -/

/-- The host as it stands in an authority. -/
def hostIn (authority : List Char) : List Char := (cutHost false (cutUserinfo authority).2).1

theorem hostIn_counted (authority : List Char) : hostIn (counted authority) = counted (hostIn authority) := by
  unfold hostIn
  rw [cutUserinfo_counted, cutHost_counted]

theorem cutHost_append (inside : Bool) (cs : List Char) : (cutHost inside cs).1 ++ (cutHost inside cs).2 = cs := by
  induction cs generalizing inside with
  | nil => rfl
  | cons c cs ih =>
    unfold cutHost
    split
    · rfl
    · exact congrArg (c :: ·) (ih _)

theorem cutHost_snd (inside : Bool) (cs : List Char) :
    (cutHost inside cs).2 = [] ∨ ∃ rest, (cutHost inside cs).2 = ':' :: rest := by
  induction cs generalizing inside with
  | nil => exact .inl rfl
  | cons c cs ih =>
    by_cases hc : c ≠ ':' ∨ inside = true
    · rw [cutHost_cons hc]
      exact ih _
    · have colon : c = ':' ∧ inside = false := by simpa using hc
      obtain ⟨rfl, rfl⟩ := colon
      exact .inr ⟨cs, rfl⟩

theorem cutUserinfo_suffix (authority : List Char) : (cutUserinfo authority).2 <:+ authority := by
  unfold cutUserinfo
  cases hc : Text.cutLast? '@' authority with
  | none => exact List.suffix_refl _
  | some p =>
    rw [(Text.cutLast?_some hc).1]
    exact (List.suffix_cons _ _).trans (List.suffix_append _ _)

theorem hostIn_isInfix (authority : List Char) : hostIn authority <:+: authority := by
  have front : hostIn authority <+: (cutUserinfo authority).2 := ⟨_, cutHost_append false _⟩
  exact front.isInfix.trans (cutUserinfo_suffix authority).isInfix

theorem readPlace_ok {place host left : List Char} {port : Option Nat} (hs : Scheme.isSpecial scheme = true)
    (h : readPlace scheme place = .ok (host, port, left)) :
    Host.parse (cutHost false place).1 = .ok host ∧ readPort scheme (cutHost false place).2 = .ok (port, left) := by
  unfold readPlace at h
  rw [hs] at h
  dsimp only at h
  cases he : (cutHost false place).1.isEmpty with
  | true => rw [he] at h; cases h
  | false =>
    rw [he] at h
    cases hh : Host.parse (cutHost false place).1 with
    | error e => simp [hh] at h; cases h
    | ok name =>
      simp only [if_true, hh] at h
      change (if _ then _ else readPort scheme (cutHost false place).2 >>= fun p => pure (name, p.1, p.2)) = _ at h
      split at h
      · cases h
      cases hp : readPort scheme (cutHost false place).2 with
      | error e => rw [hp] at h; cases h
      | ok p => rw [hp] at h; cases h; exact ⟨rfl, rfl⟩

theorem readAuthority_ok {a : Authority} (hs : Scheme.isSpecial scheme = true)
    (h : readAuthority scheme cs = .ok (a, rest)) :
    ∃ left, readPlace scheme (cutUserinfo (authorityOf cs)).2 = .ok (a.host, a.port, left) ∧
      rest = left ++ cs.dropWhile (!endsAuthority true ·) := by
  unfold readAuthority at h
  dsimp only at h
  rw [hs] at h
  split at h
  · cases h
  split at h
  · cases h
  · rename_i host port left hplace
    split at h
    · cases h
    · cases h
      exact ⟨left, hplace, rfl⟩

/-- The host is read off the authority. -/
theorem parse_hostIn (hs : Scheme.isSpecial scheme = true) (h : readAfterSlashes scheme cs = .ok u) :
    ∃ a, u.authority = some a ∧ Host.parse (hostIn (authorityOf cs)) = .ok a.host := by
  obtain ⟨a, rest, hr, rfl⟩ := readAfterSlashes_ok h
  obtain ⟨left, hplace, -⟩ := readAuthority_ok hs hr
  exact ⟨a, rfl, (readPlace_ok hs hplace).1⟩

theorem readPort_left {port : Option Nat} {left : List Char} (hb : '\\' ∉ cs)
    (hc : cs = [] ∨ ∃ rest, cs = ':' :: rest) (h : readPort scheme cs = .ok (port, left)) : left = [] := by
  rcases hc with rfl | ⟨rest, rfl⟩
  · cases h
    rfl
  simp only [readPort] at h
  split at h
  · cases h
  · rename_i hn
    cases h
    simp only [Bool.or_eq_true, decide_eq_true_eq, Bool.not_eq_true', not_or, Bool.not_eq_false,
      List.isEmpty_iff] at hn
    rcases hn.2 with hn | hn
    · exact hn
    · exact absurd (List.mem_cons_of_mem _ ((List.dropWhile_sublist _).subset (List.mem_of_mem_head? hn))) hb

/-- Without the end of an authority there is no path. -/
theorem segments_of_inside (hs : Scheme.isSpecial scheme = true) (hi : Inside cs)
    (h : readAfterSlashes scheme cs = .ok u) : u.segments = [[]] := by
  obtain ⟨a, rest, hr, rfl⟩ := readAfterSlashes_ok h
  obtain ⟨left, hplace, rfl⟩ := readAuthority_ok hs hr
  have none : left = [] := by
    refine readPort_left (fun hm => ?_) (cutHost_snd _ _) (readPlace_ok hs hplace).2
    have place : '\\' ∈ (cutUserinfo (authorityOf cs)).2 := by
      rw [← cutHost_append false (cutUserinfo (authorityOf cs)).2]
      exact List.mem_append_right _ hm
    exact absurd (inside_authorityOf cs _ ((cutUserinfo_suffix _).subset place)) (by decide)
  have end' : cs.dropWhile (!endsAuthority true ·) = [] := by
    exact List.dropWhile_eq_nil_iff.mpr fun c hc => by rw [hi c hc]; rfl
  rw [none, end', hs]
  rfl

/-! ## Before the authority -/

theorem rdropWhile_cons (p : Char → Bool) (c : Char) (cs : List Char) : (c :: cs).rdropWhile p =
    if cs.rdropWhile p = [] ∧ p c = true then [] else c :: cs.rdropWhile p := by
  unfold List.rdropWhile
  rw [List.reverse_cons, List.dropWhile_append]
  by_cases he : cs.reverse.dropWhile p = [] <;> by_cases hc : p c = true <;> simp [he, hc]

theorem countedToEnd_cons_of_ignored {c : Char} (hi : isIgnored c = true) (cs : List Char) :
    countedToEnd (c :: cs) = countedToEnd cs := by
  unfold countedToEnd
  rw [rdropWhile_cons]
  split
  · rename_i h
    rw [h.1]
  · exact counted_cons_of_ignored hi _

theorem countedToEnd_cons {c : Char} (hi : isIgnored c = false) (cs : List Char) :
    countedToEnd (c :: cs) = [] ∨ countedToEnd (c :: cs) = c :: countedToEnd cs := by
  unfold countedToEnd
  rw [rdropWhile_cons]
  split
  · exact .inl rfl
  · exact .inr (counted_cons hi _)

/-- What is read after a scheme is what counts of the text behind all that is passed over. -/
theorem dropWhile_slashes (rest : List Char) : (countedToEnd rest).dropWhile (isSlash true) =
    countedToEnd (rest.dropWhile Locator.isPassed) := by
  induction rest with
  | nil => rfl
  | cons c rest ih =>
    by_cases hi : isIgnored c = true
    · rw [countedToEnd_cons_of_ignored hi, ih, List.dropWhile_cons_of_pos (by simp [Locator.isPassed, hi])]
    have hi := Bool.eq_false_iff.mpr hi
    by_cases hc : isSlash true c = true
    · have mark : isBlank c = false := by
        rcases (by simpa [isSlash] using hc : c = '/' ∨ c = '\\') with rfl | rfl <;> decide
      have shown : countedToEnd ([] ++ c :: rest) = c :: countedToEnd rest := countedToEnd_append_cons mark
      rw [List.nil_append] at shown
      rw [shown, List.dropWhile_cons_of_pos hc, ih, List.dropWhile_cons_of_pos (by simp [Locator.isPassed, hc])]
    · rw [List.dropWhile_cons_of_neg (by simp [Locator.isPassed, hc, hi])]
      rcases countedToEnd_cons hi rest with h | h
      · rw [h]
        rfl
      · rw [h, List.dropWhile_cons_of_neg hc]

theorem not_isBlank_of_endsAuthority {c : Char} (h : endsAuthority true c = true) : isBlank c = false := by
  have mark : ((c = '/' ∨ c = '\\') ∨ c = '?') ∨ c = '#' := by simpa [endsAuthority, isSlash] using h
  rcases mark with ((rfl | rfl) | rfl) | rfl <;> decide

/-- What ends an authority counts, so the authority is cut off before or after. -/
theorem authorityOf_countedToEnd (h : ¬Inside cs) : authorityOf (countedToEnd cs) = counted (authorityOf cs) := by
  have whole : authorityOf cs ++ cs.dropWhile (!endsAuthority true ·) = cs := List.takeWhile_append_dropWhile
  cases hd : cs.dropWhile (!endsAuthority true ·) with
  | nil =>
    rw [hd, List.append_nil] at whole
    exact absurd (whole ▸ inside_authorityOf cs) h
  | cons c rest =>
    have ends : endsAuthority true c = true := by
      have := List.head?_dropWhile_not (!endsAuthority true ·) cs
      rw [hd] at this
      simpa using this
    rw [hd] at whole
    have cut : countedToEnd cs = counted (authorityOf cs) ++ c :: countedToEnd rest := by
      conv_lhs => rw [← whole]
      exact countedToEnd_append_cons (not_isBlank_of_endsAuthority ends)
    rw [cut, (authorityOf_append_cons (inside_authorityOf cs).counted ends _).1]

end Url

namespace Locator

variable {scheme rest : List Char} {l : Locator}

/-! ## The host of a repository -/

theorem hosted_of_ofUrl {u : Url} {shown : String} (h : ofUrl shown u = .ok l) :
    (hostOf u = sharedHost ∨ ownHostEnding <:+ hostOf u) ∧ 3 ≤ u.segments.length := by
  have shared : ∀ {m}, ofSharedHost? u = some m → 3 ≤ u.segments.length := by
    intro m hm
    unfold ofSharedHost? at hm
    split at hm
    · rename_i hsegments
      simp [hsegments]
    · cases hm
  have own : ∀ {m organization}, ofOwnHost? u organization = some m → 3 ≤ u.segments.length := by
    intro m organization hm
    unfold ofOwnHost? at hm
    split at hm
    · rename_i hsegments
      simp [hsegments]
    · cases hm
  unfold ofUrl at h
  split at h
  · rename_i hh
    split at h
    · rename_i m hm
      exact ⟨.inl hh, shared hm⟩
    · cases h
  split at h
  · rename_i organization ho
    split at h
    · rename_i m hm
      unfold Text.beforeEnding? at ho
      split at ho
      · rename_i hending
        exact ⟨.inr (List.isSuffixOf_iff_suffix.mp hending), own hm⟩
      · cases ho
    · cases h
  · cases h

/-- The host of a URL over HTTP as it stands in what follows the scheme. -/
def hostWritten (rest : List Char) : List Char := Url.hostIn (authorityOf (rest.dropWhile isPassed))

theorem parse_hostWritten (hs : Scheme.isHttp scheme = true)
    (h : parse (String.ofList (scheme ++ "://".toList ++ rest)) = .ok l) :
    ∃ host, Host.parse (counted (hostWritten rest)) = .ok host ∧ (host = sharedHost ∨ ownHostEnding <:+ host) := by
  obtain ⟨u, hr, hok⟩ := (parse_schemed_iff hs rest).mp h
  obtain ⟨hhost, hlength⟩ := hosted_of_ofUrl hok
  have hspecial := Scheme.isSpecial_of_isHttp hs
  rw [Url.dropWhile_slashes] at hr
  have outside : ¬Inside (rest.dropWhile isPassed) := by
    intro hi
    have inside : Inside (countedToEnd (rest.dropWhile isPassed)) := fun c hc =>
      hi c ((List.rdropWhile_prefix _ _).subset (Url.mem_counted.mp hc).1)
    rw [Url.segments_of_inside hspecial inside hr] at hlength
    exact absurd hlength (by decide)
  obtain ⟨a, ha, hp⟩ := Url.parse_hostIn hspecial hr
  rw [Url.authorityOf_countedToEnd outside, Url.hostIn_counted] at hp
  have host : hostOf u = a.host := by
    unfold hostOf
    rw [ha]
    rfl
  exact ⟨a.host, hp, host ▸ hhost⟩

theorem hostWritten_isInfix (rest : List Char) : hostWritten rest <:+: rest :=
  (Url.hostIn_isInfix _).trans ((List.takeWhile_prefix _).isInfix.trans (List.dropWhile_suffix _).isInfix)

/-- Whether a host is written out as far as a service's name goes: its last characters, as many as the ending of an
organization's own host has, are small letters, digits and dots, with a dot first if anything stands before them. -/
def isWrittenOut (written : List Char) : Bool :=
  let ending := written.drop (written.length - ownHostEnding.length)
  decide (Domain.Shown ending) && (decide (written.length ≤ ownHostEnding.length) || ending.head? = some '.')

/-- A host that is written out mentions the service. -/
theorem mentions_of_parse {written host : List Char} (hw : isWrittenOut written = true)
    (hp : Host.parse (counted written) = .ok host) (hh : host = sharedHost ∨ ownHostEnding <:+ host) :
    sharedHost <:+: written ∨ ownHostEnding <:+: written := by
  have last : host.getLast? = some 'm' := by
    rcases hh with rfl | ⟨front, rfl⟩
    · decide
    · rw [List.getLast?_append]
      rfl
  have counts : ∀ {cs : List Char}, Domain.Shown cs → counted cs = cs := by
    intro cs h
    refine List.filter_eq_self.mpr fun c hc => ?_
    have marks := (Domain.of_isShown (h c hc)).2.2.1
    simp only [List.mem_cons, not_or] at marks
    simp [Url.isIgnored, marks]
  simp only [isWrittenOut, Bool.and_eq_true, Bool.or_eq_true, decide_eq_true_eq] at hw
  obtain ⟨hshown, hdot⟩ := hw
  by_cases hlong : written.length ≤ ownHostEnding.length
  · -- all of the host is written out
    rw [Nat.sub_eq_zero_of_le hlong, List.drop_zero] at hshown
    rw [counts hshown] at hp
    have same := Host.eq_of_parse hshown last hp
    rcases hh with rfl | hh
    · exact .inl (same ▸ List.infix_refl _)
    · exact .inr (same ▸ hh.isInfix)
  · -- the last characters are those of the host, and they are as many as its ending has
    have split := List.take_append_drop (written.length - ownHostEnding.length) written
    have length := List.length_drop (i := written.length - ownHostEnding.length) (l := written)
    obtain ⟨ending, he⟩ := List.head?_eq_some_iff.mp (hdot.resolve_left hlong)
    rw [he] at split hshown length
    have shown : Domain.Shown ending := fun c hc => hshown c (List.mem_cons_of_mem _ hc)
    rw [← split, Url.counted_append, counts hshown] at hp
    have hsuffix := Host.suffix_of_parse shown last hp
    have size : ('.' :: ending).length = ownHostEnding.length := by omega
    right
    rcases hh with rfl | hh
    · have short := hsuffix.length_le
      rw [size] at short
      exact absurd short (by decide)
    · have same := (List.suffix_of_suffix_length_le hh hsuffix (Nat.le_of_eq size.symm)).eq_of_length size.symm
      rw [same, ← split]
      exact (List.suffix_append _ _).isInfix

end Locator

end HostedGit
