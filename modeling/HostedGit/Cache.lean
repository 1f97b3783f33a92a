/-
What a provider remembers: the reference list of each repository URL, and the full listing of each
repository URL at each reference. A disabled cache answers every question with none and stays empty.
-/
import HostedGit.Table

namespace HostedGit

/-- Reference lists by repository URL, and unfiltered listings by repository URL and reference. -/
structure Cache where
  enabled : Bool
  refs : Table String (List String)
  trees : Table (String × String) (List String)

namespace Cache

/-- A cache that holds nothing. -/
def empty (enabled : Bool) : Cache := ⟨enabled, .empty, .empty⟩

/-- The reference list of a repository. -/
def getRefs (c : Cache) (url : String) : Option (List String) :=
  if c.enabled then c.refs.lookup url else none

/-- The listing of a repository at a reference. -/
def getTree (c : Cache) (url reference : String) : Option (List String) :=
  if c.enabled then c.trees.lookup (url, reference) else none

/-- Records the reference list of a repository. -/
def setRefs (c : Cache) (url : String) (names : List String) : Cache :=
  if c.enabled then { c with refs := c.refs.insert url names } else c

/-- Records the listing of a repository at a reference. -/
def setTree (c : Cache) (url reference : String) (paths : List String) : Cache :=
  if c.enabled then { c with trees := c.trees.insert (url, reference) paths } else c

/-- Forgets the reference list of a repository and its listing at one reference. -/
def invalidate (c : Cache) (url reference : String) : Cache :=
  { c with refs := c.refs.erase url, trees := c.trees.erase (url, reference) }

/-- Forgets everything. -/
def clear (c : Cache) : Cache := { c with refs := .empty, trees := .empty }

/-! ## What each change shows -/

variable (c : Cache) (u v r q : String) (l : List String)

@[simp] theorem getRefs_empty (enabled : Bool) : (empty enabled).getRefs u = none := by
  cases enabled <;> rfl

@[simp] theorem getTree_empty (enabled : Bool) : (empty enabled).getTree u r = none := by
  cases enabled <;> rfl

@[simp] theorem enabled_setRefs : (c.setRefs u l).enabled = c.enabled := by
  unfold setRefs; split <;> rfl

@[simp] theorem enabled_setTree : (c.setTree u r l).enabled = c.enabled := by
  unfold setTree; split <;> rfl

theorem getRefs_setRefs :
    (c.setRefs u l).getRefs v = if c.enabled ∧ v = u then some l else c.getRefs v := by
  unfold setRefs getRefs
  cases h : c.enabled <;> simp [h, Table.lookup_insert]

@[simp] theorem getTree_setRefs : (c.setRefs u l).getTree v q = c.getTree v q := by
  unfold setRefs getTree; split <;> rfl

@[simp] theorem getRefs_setTree : (c.setTree u r l).getRefs v = c.getRefs v := by
  unfold setTree getRefs; split <;> rfl

theorem getTree_setTree :
    (c.setTree u r l).getTree v q = if c.enabled ∧ v = u ∧ q = r then some l else c.getTree v q := by
  unfold setTree getTree
  cases h : c.enabled <;> simp [h, Table.lookup_insert]

theorem getRefs_invalidate :
    (c.invalidate u r).getRefs v = if v = u then none else c.getRefs v := by
  unfold invalidate getRefs
  cases h : c.enabled <;> simp [Table.lookup_erase]

theorem getTree_invalidate :
    (c.invalidate u r).getTree v q = if v = u ∧ q = r then none else c.getTree v q := by
  unfold invalidate getTree
  cases h : c.enabled <;> simp [Table.lookup_erase]

end Cache

end HostedGit
