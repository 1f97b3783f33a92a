/-
Form encoding is undone by decoding: pairs of any texts come back as they were, behind whatever pairs the query holds
already. No escaped text holds `&` or `=`, so that a pair is cut where it was put together.
-/
import HostedGit.Proofs.Text.Percent
import HostedGit.Text.FormUrlencoded

namespace HostedGit.FormUrlencoded

variable {c : Char} {cs : List Char}

/-! ## Texts -/

/-- What a character is read as before anything else is. -/
def ofPlus (c : Char) : Char := if c = '+' then ' ' else c

theorem not_mem_encode (hs : isSafe c = false) (hp : c ≠ '%') : c ∉ Percent.encode isSafe cs := by
  have digits : ∀ n < 16, isSafe (Digits.upper n) = true := by decide
  intro hm
  rcases Percent.mem_encode hm with ⟨hc, -⟩ | hc | ⟨n, hn, rfl⟩
  · rw [hs] at hc
    cases hc
  · exact hp hc
  · rw [digits n hn] at hs
    cases hs

/-- The marks of a query are in no escaped text. -/
theorem not_mem_encodeText (hs : isSafe c = false) (hp : c ≠ '%') (hplus : c ≠ '+') : c ∉ encodeText cs := by
  intro hm
  obtain ⟨d, -, hc⟩ := List.mem_flatMap.mp hm
  split at hc
  · exact hplus (List.mem_singleton.mp hc)
  · exact not_mem_encode hs hp hc

/-- With every `+` read as a space, a text is percent-encoded, its spaces apart. -/
theorem map_ofPlus_encodeText (cs : List Char) :
    (encodeText cs).map ofPlus = Percent.encode (fun c => c = ' ' || isSafe c) cs := by
  induction cs with
  | nil => rfl
  | cons c cs ih =>
    have texts : encodeText (c :: cs) = (if c = ' ' then ['+'] else Percent.encode isSafe [c]) ++ encodeText cs :=
      List.flatMap_cons
    rw [texts, List.map_append, ih, ← List.singleton_append (l := cs), Percent.encode_append]
    refine congrArg (· ++ _) ?_
    by_cases hc : c = ' '
    · subst hc
      rfl
    · have kept : ∀ d ∈ Percent.encode isSafe [c], ofPlus d = d := by
        intro d hd
        refine if_neg ?_
        rintro rfl
        exact not_mem_encode (by decide) (by decide) hd
      rw [if_neg hc, List.map_congr_left kept, List.map_id']
      simp [Percent.encode, hc]

theorem decodeText_encodeText (cs : List Char) : decodeText (encodeText cs) = cs := by
  show Percent.decode ((encodeText cs).map ofPlus) = cs
  rw [map_ofPlus_encodeText]
  exact Percent.decode_encode (by decide) cs

/-! ## Pairs -/

theorem decodePair_encodePair (p : List Char × List Char) : decodePair (encodePair p) = p := by
  have name : ∀ c ∈ encodeText p.1, decide (c ≠ '=') = true := by
    intro c hc
    refine decide_eq_true ?_
    rintro rfl
    exact not_mem_encodeText (by decide) (by decide) (by decide) hc
  unfold decodePair encodePair
  rw [List.takeWhile_append_of_pos name, List.dropWhile_append_of_pos name]
  simp [decodeText_encodeText]

theorem amp_not_mem_encodePair (p : List Char × List Char) : '&' ∉ encodePair p := by
  have amp : ∀ cs, '&' ∉ encodeText cs := fun cs => not_mem_encodeText (by decide) (by decide) (by decide)
  unfold encodePair
  simp [amp]

theorem encodePair_ne_nil (p : List Char × List Char) : encodePair p ≠ [] :=
  List.append_ne_nil_of_right_ne_nil _ (List.cons_ne_nil _ _)

theorem decode_encodePair (p : List Char × List Char) : decode (encodePair p) = [p] := by
  unfold decode
  rw [List.splitOn_eq_singleton (amp_not_mem_encodePair p)]
  simp [encodePair_ne_nil, decodePair_encodePair]

theorem decode_append_cons (query rest : List Char) : decode (query ++ '&' :: rest) = decode query ++ decode rest := by
  unfold decode
  rw [List.splitOn_append_cons_self, List.filter_append, List.map_append]

/-- A pair comes behind those that are there. -/
theorem decode_append (query : List Char) (p : List Char × List Char) :
    decode (append query p) = decode query ++ [p] := by
  unfold append
  split
  · rename_i he
    rw [List.isEmpty_iff.mp he, decode_encodePair]
    rfl
  · rw [decode_append_cons, decode_encodePair]

/-- Pairs come behind those that are there, in their order. -/
theorem decode_foldl_append (query : List Char) (ps : List (List Char × List Char)) :
    decode (ps.foldl append query) = decode query ++ ps := by
  induction ps generalizing query with
  | nil => exact (List.append_nil _).symm
  | cons p ps ih => rw [List.foldl_cons, ih, decode_append, List.append_assoc, List.singleton_append]

end HostedGit.FormUrlencoded
