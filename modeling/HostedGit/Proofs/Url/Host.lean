/-
Hosts of special URLs. A host that is a name ends as it is written to, as long as that is small letters,
digits and dots, the first of them a dot; a host that is an address does not end with a letter.
-/
import HostedGit.Proofs.Text.Percent
import HostedGit.Proofs.Url.Domain
import HostedGit.Url.Host

namespace HostedGit

namespace Host

variable {name : List Char}

/-! ## Addresses -/

/-- An address of either kind, as a URL shows it. -/
def IsAddress (host : List Char) : Prop := (∃ n, host = Ipv4.text n) ∨ ∃ groups, host = Ipv6.text groups

variable {host : List Char}

theorem mem_ipv4_text {n : Nat} {c : Char} (hc : c ∈ Ipv4.text n) : c.isDigit = true ∨ c = '.' := by
  have dotted : ∀ {parts : List (List Char)}, (∀ part ∈ parts, ∀ c ∈ part, c.isDigit = true ∨ c = '.') →
      ∀ c ∈ ".".toList.intercalate parts, c.isDigit = true ∨ c = '.' := by
    intro parts h
    induction parts with
    | nil => nofun
    | cons part parts ih =>
      intro c hc
      by_cases he : parts = []
      · subst he
        exact h part (by simp) c (by simpa using hc)
      · rw [List.intercalate_cons_of_ne_nil he] at hc
        simp only [List.append_assoc, List.mem_append] at hc
        rcases hc with hc | hc | hc
        · exact h part (by simp) c hc
        · exact .inr (List.mem_singleton.mp hc)
        · exact ih (fun p hp => h p (by simp [hp])) c hc
  refine dotted (fun part hp c hc => ?_) c hc
  obtain ⟨k, -, rfl⟩ := List.mem_map.mp hp
  exact .inl (Nat.isDigit_of_mem_toDigits (by decide) (by decide) hc)

/-- No address ends with a letter. -/
theorem IsAddress.getLast? (h : IsAddress host) : host.getLast? ≠ some 'm' := by
  intro hm
  rcases h with ⟨n, rfl⟩ | ⟨groups, rfl⟩
  · have := mem_ipv4_text (List.mem_of_getLast? hm)
    revert this
    decide
  · obtain ⟨inner, he⟩ : ∃ inner, Ipv6.text groups = inner ++ [']'] := ⟨_, rfl⟩
    rw [he, List.getLast?_concat] at hm
    cases hm

theorem parse_cases {cs : List Char} (h : parse cs = .ok host) : IsAddress host ∨
    ∃ name, Utf8.decode? (Percent.decodeBytes cs) = some name ∧ Domain.toAscii? name = some host := by
  unfold parse at h
  split at h
  · left
    unfold Ipv6.parse at h
    repeat' split at h
    all_goals cases h
    exact .inr ⟨_, rfl⟩
  split at h
  · cases h
  · cases h
  · rename_i name _ hname
    split at h
    · split at h
      · rename_i address ha
        cases h
        obtain ⟨numbers, -, ha⟩ := Option.bind_eq_some_iff.mp ha
        obtain ⟨n, -, ha⟩ := Option.bind_eq_some_iff.mp ha
        cases ha
        exact .inl (.inl ⟨n, rfl⟩)
      · cases h
    · cases h
      exact .inr (Option.bind_eq_some_iff.mp hname)

/-! ## Names -/

/-- A name in shown characters that is none of the spellings of an address is read as it stands. -/
theorem parse_of_shown (hs : Domain.Shown name) (hne : name ≠ []) (h4 : Ipv4.applies name = false) :
    parse name = .ok name := by
  have bracket : name.head? ≠ some '[' := fun hm => hs.not_mem (by decide) (List.mem_of_mem_head? hm)
  obtain ⟨c, rest, rfl⟩ := List.exists_cons_of_ne_nil hne
  unfold parse
  rw [if_neg bracket, Percent.decodeBytes_eq_encode (hs.not_mem (by decide)), Utf8.decode?_encode]
  simp [Domain.toAscii?_of_shown hs, h4]

/-- A host that is a name ends as it is written to. -/
theorem suffix_of_parse {front ending : List Char} (hs : Domain.Shown ending) (hm : host.getLast? = some 'm')
    (h : parse (front ++ '.' :: ending) = .ok host) : '.' :: ending <:+ host := by
  rcases parse_cases h with ha | ⟨name, hn, ht⟩
  · exact absurd hm ha.getLast?
  have percent : '%' ∉ '.' :: ending := by
    simp [hs.not_mem (show Domain.isShown '%' = false by decide)]
  rw [Percent.decodeBytes_append (by decide) (by decide), Percent.decodeBytes_eq_encode percent,
    Utf8.decode?_append (by decide)] at hn
  obtain ⟨first, -, rfl⟩ := Option.map_eq_some_iff.mp hn
  exact Domain.toAscii?_suffix hs ht

/-- A host that is a name and is written in shown characters throughout is read as it stands. -/
theorem eq_of_parse {written : List Char} (hs : Domain.Shown written) (hm : host.getLast? = some 'm')
    (h : parse written = .ok host) : host = written := by
  rcases parse_cases h with ha | ⟨name, hn, ht⟩
  · exact absurd hm ha.getLast?
  rw [Percent.decodeBytes_eq_encode (hs.not_mem (by decide)), Utf8.decode?_encode] at hn
  cases hn
  rw [Domain.toAscii?_of_shown hs] at ht
  exact (Option.some.inj ht).symm

end Host

end HostedGit
