/-
One repository named in a URL over HTTP and over SSH. Both are read, whatever a URI allows in the names,
but only the former is unescaped: they name the same repository, and the same resources, exactly if none of
the names holds an escaped octet.
-/
import HostedGit.Proofs.Endpoint
import HostedGit.Proofs.Locator.Written

namespace HostedGit

/-! ## Segments of a URI -/

namespace Percent

/-- A character that a segment of a URI holds as it is: an unreserved one, a delimiter, `:` or `@`. -/
def isSegmentChar (c : Char) : Bool :=
  isUnreserved c || ['!', '$', '&', '\x27', '(', ')', '*', '+', ',', ';', '=', ':', '@'].contains c

/-- Whether a text is made of such characters and of escaped octets. -/
def isUriSegment : List Char → Bool
  | '%' :: a :: b :: rest => (Digits.value? a).isSome && (Digits.value? b).isSome && isUriSegment rest
  | c :: rest => isSegmentChar c && isUriSegment rest
  | [] => true

theorem toNat_lt_of_isSegmentChar {c : Char} (h : isSegmentChar c = true) : c.toNat < 0x80 := by
  rcases Bool.or_eq_true_iff.mp h with h | h
  · exact toNat_lt_of_isUnreserved h
  · have listed : ['!', '$', '&', '\x27', '(', ')', '*', '+', ',', ';', '=', ':', '@'].all (·.toNat < 0x80) = true := by
      decide
    exact of_decide_eq_true (List.all_eq_true.mp listed c (List.contains_iff_mem.mp h))

theorem isSegmentChar_of_value? {c : Char} (h : (Digits.value? c).isSome = true) : isSegmentChar c = true := by
  have small : c.toNat < 0x80 := by
    simp only [Digits.value?, Char.le_def, UInt32.le_iff_toNat_le] at h
    show c.val.toNat < 0x80
    split at h
    · rename_i hc
      exact Nat.lt_of_le_of_lt hc.2 (by decide)
    split at h
    · rename_i hc
      exact Nat.lt_of_le_of_lt hc.2 (by decide)
    split at h
    · rename_i hc
      exact Nat.lt_of_le_of_lt hc.2 (by decide)
    · cases h
  exact Utf8.of_ascii (P := fun c => (Digits.value? c).isSome = true → isSegmentChar c = true) (by decide) small h

theorem mem_of_isUriSegment {cs : List Char} (h : isUriSegment cs = true) {c : Char} (hc : c ∈ cs) :
    isSegmentChar c = true ∨ c = '%' := by
  fun_induction isUriSegment cs with
  | case1 a b rest ih =>
    simp only [Bool.and_eq_true] at h
    simp only [List.mem_cons] at hc
    rcases hc with rfl | rfl | rfl | hc
    · exact .inr rfl
    · exact .inl (isSegmentChar_of_value? h.1.1)
    · exact .inl (isSegmentChar_of_value? h.1.2)
    · exact ih h.2 hc
  | case2 d rest _ ih =>
    simp only [Bool.and_eq_true] at h
    rcases List.mem_cons.mp hc with rfl | hc
    · exact .inl h.1
    · exact ih h.2 hc
  | case3 => cases hc

/-- Each escaped octet is read as one octet, and so is each other character. -/
theorem length_decodeBytes {cs : List Char} (h : isUriSegment cs = true) :
    (decodeBytes cs).length + 2 * cs.count '%' = cs.length := by
  fun_induction isUriSegment cs with
  | case1 a b rest ih =>
    simp only [Bool.and_eq_true] at h
    obtain ⟨x, hx⟩ := Option.isSome_iff_exists.mp h.1.1
    obtain ⟨y, hy⟩ := Option.isSome_iff_exists.mp h.1.2
    have ha : a ≠ '%' := by rintro rfl; cases hx
    have hb : b ≠ '%' := by rintro rfl; cases hy
    have := ih h.2
    simp [decodeBytes, hx, hy, ha, hb]
    omega
  | case2 c rest _ ih =>
    simp only [Bool.and_eq_true] at h
    have hc : c ≠ '%' := by rintro rfl; exact absurd h.1 (by decide)
    have := ih h.2
    rw [decodeBytes_cons hc]
    simp [Utf8.encodeChar, toNat_lt_of_isSegmentChar h.1, hc]
    omega
  | case3 => rfl

/-- A text that is as long as what it stands for holds no escaped octet. -/
theorem percent_not_mem_of_length {cs : List Char} (h : isUriSegment cs = true) (hl : cs.length ≤ (decode cs).length) :
    '%' ∉ cs := by
  have bytes := length_decodeBytes h
  have pieces : (decode cs).length ≤ (decodeBytes cs).length := by
    unfold decode Utf8.decodeLossy
    rw [List.length_map]
    exact Utf8.length_pieces_le _
  refine List.count_eq_zero.mp ?_
  omega

end Percent

/-! ## Resources -/

theorem Url.length_trace_le (s : List Char) : (Url.trace s).length ≤ s.length := by
  unfold Url.trace
  dsimp only
  split
  · exact Nat.zero_le _
  · exact List.length_filter_le _ _

namespace Endpoint

/-- Equal paths tell the same segments, as far as they can. -/
theorem map_trace_of_pathBelow_eq {base : Url} {l l' : Locator} {e : Endpoint} (hl' : l'.Placed) (h' : PlainFor l' e)
    (hp : pathBelow base l e = pathBelow base l' e) :
    ((e.segments l).map String.toList).map Url.trace = (e.segments l').map String.toList := by
  have long : (e.segments l).length = (e.segments l').length := by simp [segments]
  have grown := @Url.held_foldl_of_plain true (Url.dropEmptyLast base.segments) _ (forall_plain_iff.mpr h')
    (.inr (segments_shape hl' e).2)
  have kept := Url.held_foldl_pushSegment true (Url.dropEmptyLast base.segments) ((e.segments l).map String.toList)
  unfold pathBelow at hp
  rw [hp, grown] at kept
  rcases kept with hlt | ⟨xs, hxs, he⟩
  · simp only [List.length_append, List.length_map] at hlt
    omega
  · rw [← hxs, ← List.append_cancel_left he, List.map_map]
    refine (List.map_congr_left fun s _ => ?_).trans (List.map_id _)
    exact Percent.decode_encode (Url.segment_percent true) s

end Endpoint

namespace Locator

/-! ## Three shapes -/

/-- A text that a segment of a URI may be: not empty, no dot segment, and made of what a URI holds as it is and of
escaped octets. -/
structure UriName (s : String) : Prop where
  nonempty : s ≠ ""
  segment : Percent.isUriSegment s.toList = true
  single : Url.isSingleDot s.toList = false
  double : Url.isDoubleDot s.toList = false

instance (s : String) : Decidable (UriName s) :=
  decidable_of_iff (s ≠ "" ∧ Percent.isUriSegment s.toList = true ∧ Url.isSingleDot s.toList = false ∧
    Url.isDoubleDot s.toList = false)
    ⟨fun h => ⟨h.1, h.2.1, h.2.2.1, h.2.2.2⟩, fun h => ⟨h.nonempty, h.segment, h.single, h.double⟩⟩

/-- A repository over HTTP, at the host that serves all organizations. -/
def webUrl (organization project repository : String) : String :=
  "https://dev.azure.com/" ++ organization ++ "/" ++ project ++ "/_git/" ++ repository

/-- A repository over SSH. -/
def sshUrl (organization project repository : String) : String :=
  "git@ssh.dev.azure.com:v3/" ++ organization ++ "/" ++ project ++ "/" ++ repository

variable {organization project repository : String}

theorem UriName.naming {s : String} (h : UriName s) : Naming s.toList := by
  refine ⟨fun he => h.nonempty (String.toList_inj.mp he), fun c hc => ?_, h.single, h.double⟩
  have small : c.toNat < 0x80 := by
    rcases Percent.mem_of_isUriSegment h.segment hc with hs | rfl
    · exact Percent.toNat_lt_of_isSegmentChar hs
    · decide
  exact Utf8.of_ascii (P := fun c => Percent.isSegmentChar c = true ∨ c = '%' →
    Url.Escape.path c = true ∧ Url.isSlash true c = false) (by decide) small (Percent.mem_of_isUriSegment h.segment hc)

theorem webUrl_eq (organization project repository : String) : webUrl organization project repository =
    (urlAt (place .blank sharedHost)
      [organization.toList, project.toList, marker, repository.toList]).toString := by
  have below : "https://dev.azure.com/".toList = "https://".toList ++ (sharedHost ++ ['/']) := by decide +kernel
  have marked : "/_git/".toList = '/' :: marker ++ ['/'] := rfl
  have between : "/".toList = ['/'] := rfl
  have blank : (userinfoText .blank).toList = [] := rfl
  refine String.toList_inj.mp ?_
  rw [Url.toString, String.toList_ofList, text_urlAt rfl, userinfoText_place, blank]
  unfold webUrl place
  -- no literal is left for `simp` to compute
  generalize "https://dev.azure.com/" = hosted, "/_git/" = git, "/" = slash, "https://".toList = https at *
  simp [below, marked, between]

theorem parse_webUrl (ho : UriName organization) (hp : UriName project) (hr : UriName repository) :
    parse (webUrl organization project repository) =
      .ok ⟨unescape organization.toList, unescape project.toList, unescape repository.toList, .blank⟩ := by
  have kept : ∀ s ∈ [organization.toList, project.toList, marker, repository.toList], Url.Kept s := by
    simp [ho.naming.kept, hp.naming.kept, kept_marker, hr.naming.kept]
  have written := written_place .blank (by decide) (by decide) parse_sharedHost
  have read : Url.parse (urlAt _ _).text = .ok (urlAt _ _) := Url.parse_text rfl written (by simp) kept
  rw [webUrl_eq, parse_toString rfl rfl read, ofUrl_shared rfl ho.naming hp.naming hr.naming]
  simp [place, unescape_escaped, Credentials.blank]

/-- Where a repository is found over SSH. -/
def sshPlace : List Char := "git@ssh.dev.azure.com:v3".toList

theorem toList_sshUrl (organization project repository : String) : (sshUrl organization project repository).toList =
    sshPlace ++ [organization.toList, project.toList, repository.toList].flatMap ('/' :: ·) := by
  have below : "git@ssh.dev.azure.com:v3/".toList = sshPlace ++ ['/'] := by decide +kernel
  have between : "/".toList = ['/'] := rfl
  unfold sshUrl
  generalize "git@ssh.dev.azure.com:v3/" = placed, "/" = slash at *
  simp [below, between]

theorem ofSsh?_sshUrl (ho : UriName organization) (hp : UriName project) (hr : UriName repository) :
    ofSsh? (sshUrl organization project repository).toList = some ⟨organization, project, repository, .blank⟩ := by
  have slash : ∀ {s : String}, UriName s → '/' ∉ s.toList := by
    intro s hs hm
    exact absurd (hs.naming.kept.held _ hm).2 (by decide)
  have place : isSshPlace sshPlace = true := by decide +kernel
  unfold ofSsh?
  rw [toList_sshUrl, Url.splitOn_append_flatMap (by decide +kernel) (by simp [slash ho, slash hp, slash hr])]
  simp [place, ho.naming.nonempty, hp.naming.nonempty, hr.naming.nonempty]

theorem parseSsh_ok {place : List Char} {l : Locator} (h : ofSsh? place = some l) (url : String) :
    parseSsh url place = .ok l := by
  unfold parseSsh
  rw [h]

theorem parse_sshUrl (ho : UriName organization) (hp : UriName project) (hr : UriName repository) :
    parse (sshUrl organization project repository) = .ok ⟨organization, project, repository, .blank⟩ ∧
      parse ("ssh://" ++ sshUrl organization project repository) =
        .ok ⟨organization, project, repository, .blank⟩ := by
  have read := ofSsh?_sshUrl ho hp hr
  have text := toList_sshUrl organization project repository
  have schemed := String.toList_append (s := "ssh://") (t := sshUrl organization project repository)
  rw [text] at read schemed
  constructor
  · unfold parse
    dsimp only
    rw [text]
    exact parseSsh_ok read _
  · unfold parse
    dsimp only
    rw [schemed]
    exact parseSsh_ok read _

/-! ## The same repository -/

theorem UriName.unescape_eq_iff {s : String} (h : UriName s) : unescape s.toList = s ↔ '%' ∉ s.toList := by
  constructor
  · intro he
    refine Percent.percent_not_mem_of_length h.segment (Nat.le_of_eq ?_)
    conv_lhs => rw [← he, unescape, String.toList_ofList]
  · intro hp
    rw [unescape, Percent.decode_eq_self hp, String.ofList_toList]

theorem UriName.of_trace {s : String} (h : UriName s) (ht : Url.trace (unescape s.toList).toList = s.toList) :
    '%' ∉ s.toList := by
  refine Percent.percent_not_mem_of_length h.segment ?_
  rw [unescape, String.toList_ofList] at ht
  calc s.toList.length = (Url.trace (Percent.decode s.toList)).length := by rw [ht]
    _ ≤ (Percent.decode s.toList).length := Url.length_trace_le _

theorem UriName.plain {s : String} (h : UriName s) : Url.Plain s.toList := by
  refine ⟨fun he => ?_, fun he => ?_, fun c hc => ?_⟩
  · exact absurd h.single (by rw [he]; decide)
  · exact absurd h.double (by rw [he]; decide)
  · exact Url.isIgnored_of_not_isBlank (Url.not_isBlank_of_path (h.naming.kept.held c hc).1)

theorem plainFor_refs (ho : UriName organization) (hp : UriName project) (hr : UriName repository) :
    Endpoint.PlainFor ⟨organization, project, repository, .blank⟩ .refs := by
  intro segment hm
  simp only [Endpoint.segments, Endpoint.tail, List.cons_append, List.nil_append, List.mem_cons,
    List.not_mem_nil, or_false] at hm
  rcases hm with rfl | rfl | rfl | rfl | rfl | rfl | rfl
  · exact ho.plain
  · exact hp.plain
  · decide
  · decide
  · decide
  · exact hr.plain
  · decide

/-- A repository over HTTP and over SSH, with or without a scheme: every one of the URLs is read, and the locators are
the same, and so are the URLs of all resources, exactly if no name holds an escaped octet. -/
theorem dialects_agree_iff (ho : UriName organization) (hp : UriName project) (hr : UriName repository) :
    ∃ web ssh, parse (webUrl organization project repository) = .ok web ∧
      parse (sshUrl organization project repository) = .ok ssh ∧
      parse ("ssh://" ++ sshUrl organization project repository) = .ok ssh ∧
      (web = ssh ↔ ∀ s ∈ [organization, project, repository], '%' ∉ s.toList) ∧
      ∀ (s : Settings) (c : Config), s.build = .ok c → ((∀ e : Endpoint, e.url c.baseUrl web = e.url c.baseUrl ssh) ↔
        ∀ s ∈ [organization, project, repository], '%' ∉ s.toList) := by
  have same : (⟨unescape organization.toList, unescape project.toList, unescape repository.toList, .blank⟩ : Locator) =
      ⟨organization, project, repository, .blank⟩ ↔ ∀ s ∈ [organization, project, repository], '%' ∉ s.toList := by
    simp [ho.unescape_eq_iff, hp.unescape_eq_iff, hr.unescape_eq_iff]
  refine ⟨_, _, parse_webUrl ho hp hr, (parse_sshUrl ho hp hr).1, (parse_sshUrl ho hp hr).2, same, fun s c hb => ?_⟩
  constructor
  · intro h
    obtain ⟨base, hbase, hs⟩ := Settings.base_of_build hb
    obtain ⟨u, hu, hpath⟩ := Endpoint.url_ok hbase hs
      ⟨unescape organization.toList, unescape project.toList, unescape repository.toList, .blank⟩ .refs
    obtain ⟨v, hv, hpath'⟩ := Endpoint.url_ok hbase hs ⟨organization, project, repository, .blank⟩ .refs
    rw [h .refs, hv] at hu
    cases hu
    rw [hpath'] at hpath
    have below := (UrlPath.segments.inj hpath).symm
    have traced := Endpoint.map_trace_of_pathBelow_eq (placed_of_parse (parse_sshUrl ho hp hr).1)
      (plainFor_refs ho hp hr) below
    simp only [Endpoint.segments, List.map_cons, List.cons_append, List.cons.injEq] at traced
    simp [ho.of_trace traced.1, hp.of_trace traced.2.1, hr.of_trace traced.2.2.2.2.2.1]
  · intro h e
    rw [same.mpr h]

/-- An escaped blank keeps the two dialects apart; other marks do not. -/
theorem dialects_agree_iff_spaced :
    UriName "org" ∧ UriName "My%20Project" ∧ UriName "repo:@;v1" ∧
      ∃ web ssh, parse (webUrl "org" "My%20Project" "repo:@;v1") = .ok web ∧
        parse (sshUrl "org" "My%20Project" "repo:@;v1") = .ok ssh ∧ web ≠ ssh := by
  have ho : UriName "org" := by decide
  have hp : UriName "My%20Project" := by decide
  have hr : UriName "repo:@;v1" := by decide
  obtain ⟨web, ssh, hweb, hssh, -, same, -⟩ := dialects_agree_iff ho hp hr
  refine ⟨ho, hp, hr, web, ssh, hweb, hssh, fun he => ?_⟩
  exact absurd (same.mp he "My%20Project" (by simp)) (by decide)

/-- A name with a blank, which a URL has to escape, is another name over SSH. -/
theorem dialects_differ : ¬ ∀ organization project repository : String, UriName organization → UriName project →
    UriName repository → ∃ web ssh, parse (webUrl organization project repository) = .ok web ∧
      parse (sshUrl organization project repository) = .ok ssh ∧
      web.organization = ssh.organization ∧ web.project = ssh.project ∧ web.repository = ssh.repository := by
  intro h
  obtain ⟨web, ssh, hweb, hssh, -, same, -⟩ := h "org" "My%20Project" "repo" (by decide) (by decide) (by decide)
  have read : (parse (webUrl "org" "My%20Project" "repo")).toOption.map project = some "My Project" := by decide +kernel
  have kept : (parse (sshUrl "org" "My%20Project" "repo")).toOption.map project = some "My%20Project" := by
    decide +kernel
  rw [hweb] at read
  rw [hssh] at kept
  have := (Option.some.inj read).symm.trans (same.trans (Option.some.inj kept))
  revert this
  decide

end Locator

end HostedGit
