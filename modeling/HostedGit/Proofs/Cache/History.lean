/-
Histories: what came and what was forgotten, in order. What a history says of the references of a URL, and
of the tree of a URL at a reference, is what the last of its happenings that touch them says. A cache
that is changed by each happening as it comes shows just that.
-/
import HostedGit.Payload
import HostedGit.Proofs.Cache.Operations
import HostedGit.Session

namespace HostedGit

/-! ## Documents -/

namespace Document

/-- The reference names that a document lists, without the symbolic one, if it is a list of references
that came with a status that carries content and that can be read. -/
def refs? (d : Document) : Option (List String) :=
  if d.step = "list refs" ∧ Status.isSuccess d.status then
    (Json.decode (Payload.valueList Payload.gitRef) d.body).toOption.map fun names =>
      names.filter (· ≠ "HEAD")
  else none

/-- The paths that a document lists, if it is a tree that came with a status that carries content and
that can be read. -/
def paths? (d : Document) : Option (List String) :=
  if d.step = "list tree" ∧ Status.isSuccess d.status then (Payload.decodeTree d.body).toOption else none

theorem refs?_of_step {d : Document} (h : d.step ≠ "list refs") : d.refs? = none := by
  unfold refs?
  rw [if_neg fun h' => h h'.1]

theorem paths?_of_step {d : Document} (h : d.step ≠ "list tree") : d.paths? = none := by
  unfold paths?
  rw [if_neg fun h' => h h'.1]

end Document

/-! ## Happenings -/

/-- Something that matters to what is known: a document that came in full during a call, or that a
version was to be forgotten. -/
inductive Happening where
  | received (call : Call) (d : Document)
  | forgotten (t : Target)

namespace Happening

/-- What a happening says of the references of a URL, if it touches them: which ones there are, or that
they are not known any more. -/
def refs? (url : String) : Happening → Option (Option (List String))
  | received call d => if call.target.url = url then d.refs?.map some else none
  | forgotten t => if t.url = url then some none else none

/-- What a happening says of the tree of a URL at a reference, if it touches it: all its paths, or that
they are not known any more. -/
def tree? (url reference : String) : Happening → Option (Option (List String))
  | received (.listTree t _) d => if t.url = url ∧ t.reference = reference then d.paths?.map some else none
  | received _ _ => none
  | forgotten t => if t.url = url ∧ t.reference = reference then some none else none

end Happening

/-- What happened, the first thing first. -/
abbrev History := List Happening

namespace History

/-- The references of a URL, as the last happening has it that touches them. -/
def refs (h : History) (url : String) : Option (List String) := (h.filterMap (·.refs? url)).getLast?.join

/-- The paths of a URL at a reference, as the last happening has it that touches them. -/
def tree (h : History) (url reference : String) : Option (List String) :=
  (h.filterMap (·.tree? url reference)).getLast?.join

end History

/-! ## Caches that follow a history -/

namespace Cache

/-- The cache after a document that came during a call: a list of references is put under the URL of any
call, and a tree under the URL and the reference of a call for a tree. -/
def learn (call : Call) (c : Cache) (d : Document) : Cache :=
  match d.refs? with
  | some names => c.setRefs call.target.url names
  | none =>
    match call, d.paths? with
    | .listTree t _, some paths => c.setTree t.url t.reference paths
    | _, _ => c

/-- The cache after a happening. -/
def follow (c : Cache) : Happening → Cache
  | .received call d => c.learn call d
  | .forgotten t => c.invalidate t.url t.reference

/-- A document that lists no paths says nothing of a tree. -/
theorem tree?_of_paths? {d : Document} (h : d.paths? = none) (call : Call) (url reference : String) :
    (Happening.received call d).tree? url reference = none := by
  unfold Happening.tree?
  cases call with
  | listTree t extensions => dsimp only; rw [h]; split <;> rfl
  | _ => rfl

/-- A document is never both a list of references and a tree. -/
theorem paths?_eq_none_of_refs? {d : Document} {names : List String} (h : d.refs? = some names) :
    d.paths? = none := by
  refine Document.paths?_of_step fun hs => ?_
  rw [Document.refs?_of_step (by rw [hs]; decide)] at h
  cases h

theorem refs?_eq_none_of_paths? {d : Document} {paths : List String} (h : d.paths? = some paths) :
    d.refs? = none := by
  cases hd : d.refs? with
  | none => rfl
  | some names =>
    rw [paths?_eq_none_of_refs? hd] at h
    cases h

@[simp] theorem enabled_follow (c : Cache) (x : Happening) : (c.follow x).enabled = c.enabled := by
  cases x with
  | received call d =>
    unfold follow learn
    dsimp only
    split
    · exact enabled_setRefs ..
    · split
      · exact enabled_setTree ..
      · rfl
  | forgotten t => rfl

/-- A happening changes the references of a URL to what it says of them, and leaves alone what it says
nothing of. -/
theorem getRefs_follow {c : Cache} (hc : c.enabled = true) (x : Happening) (url : String) :
    (c.follow x).getRefs url = (x.refs? url).getD (c.getRefs url) := by
  cases x with
  | received call d =>
    unfold follow learn Happening.refs?
    dsimp only
    cases hd : d.refs? with
    | some names =>
      rw [getRefs_setRefs]
      by_cases h : call.target.url = url
      · simp [hc, h]
      · simp [h, Ne.symm h]
    | none =>
      have : (if call.target.url = url then (none : Option (List String)).map some else none) = none := by
        split <;> rfl
      rw [this]
      dsimp only
      split
      · exact getRefs_setTree ..
      · rfl
  | forgotten t =>
    unfold follow Happening.refs?
    rw [getRefs_invalidate]
    by_cases h : t.url = url
    · simp [h]
    · simp [h, Ne.symm h]

/-- A happening changes the tree of a URL at a reference to what it says of it, and leaves alone what it
says nothing of. -/
theorem getTree_follow {c : Cache} (hc : c.enabled = true) (x : Happening) (url reference : String) :
    (c.follow x).getTree url reference = (x.tree? url reference).getD (c.getTree url reference) := by
  cases x with
  | forgotten t =>
    unfold follow Happening.tree?
    rw [getTree_invalidate]
    by_cases h : t.url = url ∧ t.reference = reference
    · simp [h]
    · rw [if_neg fun h' => h ⟨h'.1.symm, h'.2.symm⟩]
      simp [h]
  | received call d =>
    unfold follow learn
    dsimp only
    cases hd : d.refs? with
    | some names =>
      rw [getTree_setRefs, tree?_of_paths? (paths?_eq_none_of_refs? hd)]
      rfl
    | none =>
      cases hp : d.paths? with
      | none => rw [tree?_of_paths? hp]; cases call <;> rfl
      | some paths =>
        cases call with
        | listTree t extensions =>
          unfold Happening.tree?
          dsimp only
          rw [getTree_setTree]
          by_cases h : t.url = url ∧ t.reference = reference
          · simp [hc, h, hp]
          · rw [if_neg fun h' => h ⟨h'.2.1.symm, h'.2.2.symm⟩]
            simp [h]
        | _ => rfl

/-! ## Whole histories -/

@[simp] theorem enabled_foldl_follow (h : History) (c : Cache) : (h.foldl follow c).enabled = c.enabled := by
  induction h generalizing c with
  | nil => rfl
  | cons x h ih => rw [List.foldl_cons, ih, enabled_follow]

/-- What is said last holds: a value that each happening replaces by what it says of it, if it says
something of it, is at the end what was said last. -/
theorem foldl_follow_of {α : Type} (view : Cache → α) (said : Happening → Option α)
    (step : ∀ {c : Cache}, c.enabled = true → ∀ x, view (c.follow x) = (said x).getD (view c)) (h : History)
    {c : Cache} (hc : c.enabled = true) :
    view (h.foldl follow c) = (h.filterMap said).getLast?.getD (view c) :=
  view_foldl (·.enabled = true) view said (fun hc x => (enabled_follow _ x).trans hc) (fun hc x => step hc x) h hc

theorem getRefs_of_disabled {c : Cache} (hc : c.enabled = false) (url : String) : c.getRefs url = none := by
  unfold getRefs
  rw [hc]
  rfl

theorem getTree_of_disabled {c : Cache} (hc : c.enabled = false) (url reference : String) :
    c.getTree url reference = none := by
  unfold getTree
  rw [hc]
  rfl

/-- What a history does not touch stays as it was. -/
theorem getTree_foldl_of_unsaid {h : History} {url reference : String} (hh : ∀ x ∈ h, x.tree? url reference = none)
    (c : Cache) : (h.foldl follow c).getTree url reference = c.getTree url reference := by
  cases hc : c.enabled with
  | false => rw [getTree_of_disabled ((enabled_foldl_follow h c).trans hc), getTree_of_disabled hc]
  | true =>
    rw [foldl_follow_of (·.getTree url reference) (·.tree? url reference)
      (fun hc x => getTree_follow hc x url reference) h hc, List.filterMap_eq_nil_iff.mpr hh]
    rfl

/-- References that are shown after a history were shown before it, or some happening says them. -/
theorem getRefs_foldl_cases (h : History) (c : Cache) (url : String) :
    (h.foldl follow c).getRefs url = c.getRefs url ∨
      ∃ x ∈ h, x.refs? url = some ((h.foldl follow c).getRefs url) := by
  cases hc : c.enabled with
  | false => exact .inl (by rw [getRefs_of_disabled ((enabled_foldl_follow h c).trans hc), getRefs_of_disabled hc])
  | true =>
    rw [foldl_follow_of (·.getRefs url) (·.refs? url) (fun hc x => getRefs_follow hc x url) h hc]
    cases hlast : (h.filterMap (·.refs? url)).getLast? with
    | none => exact .inl rfl
    | some v => exact .inr (List.mem_filterMap.mp (List.mem_of_getLast? hlast))

/-- The references that a cache shows that was empty before a history. -/
theorem getRefs_foldl_follow (h : History) (enabled : Bool) (url : String) :
    (h.foldl follow (.empty enabled)).getRefs url = if enabled then h.refs url else none := by
  cases enabled with
  | false => exact getRefs_of_disabled (enabled_foldl_follow h _) url
  | true =>
    rw [foldl_follow_of (·.getRefs url) (·.refs? url) (fun hc x => getRefs_follow hc x url) h rfl,
      getRefs_empty]
    unfold History.refs
    cases (h.filterMap (·.refs? url)).getLast? <;> rfl

/-- The trees that a cache shows that was empty before a history. -/
theorem getTree_foldl_follow (h : History) (enabled : Bool) (url reference : String) :
    (h.foldl follow (.empty enabled)).getTree url reference =
      if enabled then h.tree url reference else none := by
  cases enabled with
  | false => exact getTree_of_disabled (enabled_foldl_follow h _) url reference
  | true =>
    rw [foldl_follow_of (·.getTree url reference) (·.tree? url reference)
      (fun hc x => getTree_follow hc x url reference) h rfl, getTree_empty]
    unfold History.tree
    cases (h.filterMap (·.tree? url reference)).getLast? <;> rfl

end Cache

end HostedGit
