/-
Paths of resources. Below any base URL that settings let through, and for any locator that has been read,
the path of a resource tells the coordinates and the resource exactly if every segment of it is plain and
the path of the base is not just two slashes; and resources with plain segments have different paths.
-/
import HostedGit.Config
import HostedGit.Endpoint
import HostedGit.Proofs.Locator

namespace HostedGit

/-! ## Base URLs -/

/-- Settings are only let through with a base URL that requests can be made to. -/
theorem Settings.base_of_build {s : Settings} {c : Config} (h : s.build = .ok c) :
    ∃ base, Url.parse c.baseUrl.toList = .ok base ∧ Scheme.isHttp base.scheme = true := by
  unfold build at h
  dsimp only at h
  split at h
  · cases h
  generalize (s.baseUrl.map trimSlashes).getD Config.default.baseUrl = text at h
  cases hp : Url.parse text.toList with
  | error cause => rw [hp] at h; cases h
  | ok base =>
    rw [hp] at h
    dsimp only at h
    split at h
    · cases h
    · rename_i hr
      cases h
      refine ⟨base, hp, ?_⟩
      simp only [isReachable, Bool.not_eq_true', Bool.not_eq_false, Bool.and_eq_true] at hr
      exact hr.1

namespace Endpoint

/-! ## Paths -/

/-- The path of a resource below a base URL. -/
def pathBelow (base : Url) (l : Locator) (e : Endpoint) : List (List Char) :=
  ((e.segments l).map String.toList).foldl (Url.pushSegment true) (Url.dropEmptyLast base.segments)

theorem url_ok {text : String} {base : Url} (hp : Url.parse text.toList = .ok base)
    (hs : Scheme.isHttp base.scheme = true) (l : Locator) (e : Endpoint) :
    ∃ u, e.url text l = .ok u ∧ u.path = .segments (pathBelow base l e) := by
  have hpath := (Url.path_of_parse_http hp hs).1
  have grown : base.extendSegments ((e.segments l).map String.toList) =
      .ok { base with path := .segments (pathBelow base l e) } := by
    unfold Url.extendSegments
    rw [hpath]
    dsimp only
    rw [Scheme.isSpecial_of_isHttp hs, Scheme.isFile_of_isHttp hs]
    rfl
  unfold url
  rw [hp]
  show ∃ u, ((base.extendSegments ((e.segments l).map String.toList)) >>= _) = .ok u ∧ _
  rw [grown]
  exact ⟨_, rfl, rfl⟩

/-- A resource lies below the base URL: nothing of it changes but its path, and the query gets longer. -/
theorem exists_path_of_url {text : String} {base u : Url} {l : Locator} {e : Endpoint}
    (hp : Url.parse text.toList = .ok base) (hu : e.url text l = .ok u) :
    ∃ path, u = Url.appendQuery { base with path } (e.pairs.map fun p => (p.1.toList, p.2.toList)) := by
  unfold url at hu
  rw [hp] at hu
  have hu : (base.extendSegments ((e.segments l).map String.toList) >>= fun u =>
    pure (u.appendQuery (e.pairs.map fun p => (p.1.toList, p.2.toList)))) = .ok u := hu
  unfold Url.extendSegments at hu
  split at hu
  · cases hu
  · cases hu
    exact ⟨_, rfl⟩

/-- A resource lies at the host of the base URL, and is asked for with the credentials in it. -/
theorem authority_of_url {text : String} {base u : Url} {l : Locator} {e : Endpoint}
    (hp : Url.parse text.toList = .ok base) (hu : e.url text l = .ok u) :
    u.authority = base.authority ∧ u.scheme = base.scheme := by
  obtain ⟨path, rfl⟩ := exists_path_of_url hp hu
  exact ⟨rfl, rfl⟩

theorem map_unescape_inj {xs ys : List (List Char)} {names : List String} :
    xs.map Locator.unescape = ys.map Locator.unescape ++ names ↔
      xs.map Percent.decode = ys.map Percent.decode ++ names.map String.toList := by
  have unescaped : ∀ zs : List (List Char), (zs.map Locator.unescape).map String.toList = zs.map Percent.decode := by
    intro zs
    rw [List.map_map]
    exact List.map_congr_left fun z _ => String.toList_ofList
  constructor
  · intro h
    rw [← unescaped, h, List.map_append, unescaped]
  · intro h
    rw [← unescaped, ← unescaped, ← List.map_append] at h
    exact (List.map_inj_right fun _ _ => String.toList_inj.mp).mp h

theorem pathBelow_slash_free {text : String} {base : Url} (hp : Url.parse text.toList = .ok base)
    (hs : Scheme.isHttp base.scheme = true) (l : Locator) (e : Endpoint) :
    ∀ s ∈ pathBelow base l e, '/' ∉ s := by
  refine Url.slash_not_mem_foldl true fun s h => (Url.path_of_parse_http hp hs).2 s ?_
  unfold Url.dropEmptyLast at h
  split at h
  · exact List.dropLast_subset _ h
  · exact h

/-- A segment that is added as it is. -/
def PlainFor (l : Locator) (e : Endpoint) : Prop := ∀ segment ∈ e.segments l, Url.Plain segment.toList

instance (l : Locator) (e : Endpoint) : Decidable (PlainFor l e) :=
  inferInstanceAs (Decidable (∀ segment ∈ e.segments l, _))

/-- The first segment is not empty, and there are more. -/
theorem segments_shape {l : Locator} (hl : l.Placed) (e : Endpoint) :
    2 ≤ ((e.segments l).map String.toList).length ∧
      ((e.segments l).map String.toList).head? ≠ some [] := by
  constructor
  · unfold segments
    simp only [List.map_append, List.length_append, List.map_cons, List.length_cons]
    omega
  · intro h
    refine hl.organization (String.toList_inj.mp ?_)
    exact Option.some.inj h

theorem forall_plain_iff {l : Locator} {e : Endpoint} :
    (∀ s ∈ (e.segments l).map String.toList, Url.Plain s) ↔ PlainFor l e := by
  unfold PlainFor
  constructor
  · exact fun h segment hs => h _ (List.mem_map_of_mem hs)
  · intro h s hs
    obtain ⟨segment, hm, rfl⟩ := List.mem_map.mp hs
    exact h segment hm

/-- Resources with plain segments and equal paths are the same. -/
theorem segments_inj {base : Url} {l l' : Locator} {e e' : Endpoint} (hl : l.Placed) (hl' : l'.Placed)
    (h : PlainFor l e) (h' : PlainFor l' e') (hp : pathBelow base l e = pathBelow base l' e') :
    e.segments l = e'.segments l' := by
  have traced : ∀ {l : Locator} {e : Endpoint}, l.Placed → PlainFor l e →
      Url.held (pathBelow base l e) = Url.held (Url.dropEmptyLast base.segments) ++
        ((e.segments l).map String.toList).map (Percent.encode (Url.Escape.segment true)) := fun hl h =>
    Url.held_foldl_of_plain true (forall_plain_iff.mpr h) (.inr (segments_shape hl _).2)
  have same := (traced hl h).symm.trans ((congrArg Url.held hp).trans (traced hl' h'))
  have escaped := List.append_cancel_left same
  rw [List.map_inj_right fun _ _ => Percent.encode_injective (Url.segment_percent true),
    List.map_inj_right fun _ _ => String.toList_inj.mp] at escaped
  exact escaped

/-- For settings that are let through and a URL that is read, the path of a resource, cut at `/` and
unescaped, is the path of the base URL with the coordinates and the resource after it, exactly if these are
plain and the base is not just two slashes. Resources with plain segments have different paths, wherever
they lie. -/
theorem path_tells_segments {s : Settings} {c : Config} (hb : s.build = .ok c) {raw : String} {l : Locator}
    (hp : Locator.parse raw = .ok l) (e : Endpoint) :
    ∃ base u, Url.parse c.baseUrl.toList = .ok base ∧ e.url c.baseUrl l = .ok u ∧
      ((u.path.text.splitOn '/').map Locator.unescape =
          "" :: (Url.withoutEmptyLast base.segments).map Locator.unescape ++ e.segments l ↔
        base.segments ≠ [[], []] ∧ PlainFor l e) ∧
      ∀ raw' l' e' u', Locator.parse raw' = .ok l' → url c.baseUrl l' e' = .ok u' →
        PlainFor l e → PlainFor l' e' → u'.path.text = u.path.text →
          l'.organization = l.organization ∧ l'.project = l.project ∧ l'.repository = l.repository ∧
            e'.tail = e.tail := by
  obtain ⟨base, hbase, hs⟩ := Settings.base_of_build hb
  obtain ⟨u, hu, hpath⟩ := url_ok hbase hs l e
  have hl := Locator.placed_of_parse hp
  have split : u.path.text.splitOn '/' = [] :: pathBelow base l e := by
    rw [hpath]
    exact Url.splitOn_text (pathBelow_slash_free hbase hs l e)
  refine ⟨base, u, hbase, hu, ?_, ?_⟩
  · rw [split, List.map_cons, Locator.unescape_nil, List.cons_append, List.cons_inj_right, map_unescape_inj,
      ← forall_plain_iff]
    exact Url.map_decode_foldl_iff true base.segments (segments_shape hl e).1 (segments_shape hl e).2
  · intro raw' l' e' u' hp' hu' h h' htext
    obtain ⟨v, hv, hpath'⟩ := url_ok hbase hs l' e'
    cases hu'.symm.trans hv
    have split' : u'.path.text.splitOn '/' = [] :: pathBelow base l' e' := by
      rw [hpath']
      exact Url.splitOn_text (pathBelow_slash_free hbase hs l' e')
    rw [htext, split] at split'
    have same := segments_inj hl (Locator.placed_of_parse hp') h h' (List.cons.inj split').2
    unfold segments at same
    simp only [List.cons_append, List.nil_append, List.cons.injEq, true_and] at same
    exact ⟨same.1.symm, same.2.1.symm, same.2.2.1.symm, same.2.2.2.symm⟩

/-- A blank and a slash within names come back from the path as they were. -/
theorem path_tells_segments_spaced :
    Settings.none.build = .ok Config.default ∧
      Locator.parse "https://dev.azure.com/org/my%20project/_git/a%2Fb" = .ok ⟨"org", "my project", "a/b", .blank⟩ ∧
      ∃ u, url Config.default.baseUrl ⟨"org", "my project", "a/b", .blank⟩ (.tree "7a") = .ok u ∧
        (u.path.text.splitOn '/').map Locator.unescape =
          ["", "org", "my project", "_apis", "git", "repositories", "a/b", "trees", "7a"] := by
  have hb : Settings.none.build = .ok Config.default := Locator.eq_ok_of_toOption (by decide +kernel)
  have hp : Locator.parse "https://dev.azure.com/org/my%20project/_git/a%2Fb" =
      .ok ⟨"org", "my project", "a/b", .blank⟩ := Locator.eq_ok_of_toOption (by decide +kernel)
  obtain ⟨base, u, hbase, hu, told, -⟩ := path_tells_segments hb hp (.tree "7a")
  have hroot : (Url.parse Config.default.baseUrl.toList).toOption.map Url.segments = some [[]] := by decide +kernel
  rw [hbase] at hroot
  have hsegments : base.segments = [[]] := Option.some.inj hroot
  refine ⟨hb, hp, u, hu, ?_⟩
  rw [told.mpr ⟨by rw [hsegments]; decide, by decide⟩, hsegments]
  rfl

/-- A tab is lost, so that what is addressed is another project. -/
theorem path_loses_tab :
    ¬ ∀ (s : Settings) (c : Config) (raw : String) (l : Locator) (e : Endpoint) (base u : Url), s.build = .ok c →
      Locator.parse raw = .ok l → Url.parse c.baseUrl.toList = .ok base → e.url c.baseUrl l = .ok u →
        (u.path.text.splitOn '/').map Locator.unescape =
          "" :: (Url.withoutEmptyLast base.segments).map Locator.unescape ++ e.segments l := by
  intro h
  have hb : Settings.none.build = .ok Config.default := Locator.eq_ok_of_toOption (by decide +kernel)
  have hp : Locator.parse "https://dev.azure.com/org/a%09b/_git/repo" = .ok ⟨"org", "a\tb", "repo", .blank⟩ :=
    Locator.eq_ok_of_toOption (by decide +kernel)
  obtain ⟨base, hbase, hs⟩ := Settings.base_of_build hb
  obtain ⟨u, hu, -⟩ := url_ok hbase hs ⟨"org", "a\tb", "repo", .blank⟩ .refs
  have told := congrArg (·[2]?) (h _ _ _ _ _ base u hb hp hbase hu)
  have hroot : (Url.parse Config.default.baseUrl.toList).toOption.map Url.segments = some [[]] := by decide +kernel
  rw [hbase] at hroot
  have hsegments : base.segments = [[]] := Option.some.inj hroot
  have hsent : (url Config.default.baseUrl ⟨"org", "a\tb", "repo", .blank⟩ .refs).toOption.map
      (fun u => ((u.path.text.splitOn '/').map Locator.unescape)[2]?) = some (some "ab") := by decide +kernel
  rw [hu] at hsent
  have hsent : ((u.path.text.splitOn '/').map Locator.unescape)[2]? = some "ab" := Option.some.inj hsent
  rw [hsent, hsegments] at told
  revert told
  decide

end Endpoint

end HostedGit
