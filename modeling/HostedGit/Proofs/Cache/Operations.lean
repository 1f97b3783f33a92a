/-
A cache against the log of what was done with it. A get answers what the last set of its very key put there, if no
invalidation that concerns the key and no clearing came since, and nothing otherwise. What touches other keys, and
gets themselves, make no difference.
-/
import HostedGit.Cache
import HostedGit.Proofs.Latest

namespace HostedGit

namespace Cache

/-! ## Operations -/

/-- What something can be remembered under. -/
inductive Key where
  /-- The references of a repository. -/
  | refs (url : String)
  /-- The tree of a repository at a reference. -/
  | tree (url reference : String)
  deriving DecidableEq, Repr

/-- Whether a key is forgotten when a version is: the references of its repository are, and its own tree. -/
def Key.goesWith (url reference : String) : Key → Bool
  | refs u => u = url
  | tree u r => u = url ∧ r = reference

/-- What can be done with a cache. -/
inductive Operation where
  | set (k : Key) (value : List String)
  | get (k : Key)
  | invalidate (url reference : String)
  | clear
  deriving DecidableEq, Repr

/-- Whether an operation replaces or removes what is remembered under a key. -/
def Operation.touches (k : Key) : Operation → Bool
  | set j _ => j = k
  | get _ => false
  | invalidate url reference => k.goesWith url reference
  | clear => true

/-- Looks a key up. -/
def get (c : Cache) : Key → Option (List String)
  | .refs url => c.getRefs url
  | .tree url reference => c.getTree url reference

/-- Remembers something under a key. -/
def set (c : Cache) : Key → List String → Cache
  | .refs url, names => c.setRefs url names
  | .tree url reference, paths => c.setTree url reference paths

/-- Does something with a cache: what it answers, and what the cache is then. -/
def perform (c : Cache) : Operation → Option (List String) × Cache
  | .set k value => (none, c.set k value)
  | .get k => (c.get k, c)
  | .invalidate url reference => (none, c.invalidate url reference)
  | .clear => (none, c.clear)

/-- Does one thing after the other. -/
def performAll (c : Cache) : List Operation → List (Option (List String)) × Cache
  | [] => ([], c)
  | o :: ops =>
    let (answer, c) := c.perform o
    let (answers, c) := c.performAll ops
    (answer :: answers, c)

variable (c : Cache) (k j : Key) (o : Operation) (ops more : List Operation)

/-! ## What one operation shows -/

@[simp] theorem enabled_perform : (c.perform o).2.enabled = c.enabled := by
  cases o with
  | set k value => cases k <;> simp [perform, set]
  | _ => rfl

theorem get_empty (enabled : Bool) : (empty enabled).get k = none := by
  cases k with
  | refs url => exact getRefs_empty url enabled
  | tree url reference => exact getTree_empty url reference enabled

theorem get_of_disabled {c : Cache} (hc : c.enabled = false) : c.get k = none := by
  cases k <;> simp [get, getRefs, getTree, hc]

theorem get_set {c : Cache} (hc : c.enabled = true) (value : List String) :
    (c.set k value).get j = if k = j then some value else c.get j := by
  cases k <;> cases j <;> simp [get, set, getRefs_setRefs, getTree_setTree, hc, eq_comm]

theorem get_invalidate (url reference : String) :
    (c.invalidate url reference).get k = if k.goesWith url reference then none else c.get k := by
  cases k <;> simp [get, Key.goesWith, getRefs_invalidate, getTree_invalidate]

theorem get_clear : c.clear.get k = none := by
  cases k <;> exact ite_self _

/-- What an operation says of a key, if it touches it: what is remembered under it from then on. -/
def Operation.says? (k : Key) : Operation → Option (Option (List String))
  | set j value => if j = k then some (some value) else none
  | get _ => none
  | invalidate url reference => if k.goesWith url reference then some none else none
  | clear => some none

theorem Operation.says?_eq_none_iff : o.says? k = none ↔ o.touches k = false := by
  cases o <;> simp [says?, touches]

theorem Operation.says?_eq_some_some_iff {value : List String} : o.says? k = some (some value) ↔ o = .set k value := by
  cases o <;> simp [says?]

theorem get_perform {c : Cache} (hc : c.enabled = true) : (c.perform o).2.get k = (o.says? k).getD (c.get k) := by
  cases o with
  | set j value =>
    rw [perform, get_set j k hc, Operation.says?]
    split <;> rfl
  | get j => rfl
  | invalidate url reference =>
    rw [perform, get_invalidate, Operation.says?]
    split <;> rfl
  | clear => exact get_clear c k

/-! ## What many operations show -/

theorem performAll_append : c.performAll (ops ++ more) =
    ((c.performAll ops).1 ++ ((c.performAll ops).2.performAll more).1, ((c.performAll ops).2.performAll more).2) := by
  induction ops generalizing c with
  | nil => rfl
  | cons o ops ih =>
    rw [List.cons_append, performAll]
    dsimp only
    rw [ih]
    rfl

theorem length_performAll : (c.performAll ops).1.length = ops.length := by
  induction ops generalizing c with
  | nil => rfl
  | cons o ops ih => exact congrArg (· + 1) (ih _)

theorem enabled_performAll : (c.performAll ops).2.enabled = c.enabled := by
  induction ops generalizing c with
  | nil => rfl
  | cons o ops ih => exact (ih _).trans (enabled_perform c o)

theorem performAll_eq_foldl : (c.performAll ops).2 = ops.foldl (fun c o => (c.perform o).2) c := by
  induction ops generalizing c with
  | nil => rfl
  | cons o ops ih => exact ih _

theorem get_performAll {c : Cache} (hc : c.enabled = true) :
    (c.performAll ops).2.get k = (ops.filterMap (·.says? k)).getLast?.getD (c.get k) := by
  rw [performAll_eq_foldl]
  exact view_foldl (·.enabled = true) (fun c : Cache => c.get k) (·.says? k)
    (fun hc o => (enabled_perform _ o).trans hc) (fun hc o => get_perform k o hc) ops hc

/-! ## Logs -/

/-- A value that is put under a key by the last operation of a log which touches the key. -/
def Stands (log : List Operation) (k : Key) (value : List String) : Prop :=
  ∃ before after, log = before ++ .set k value :: after ∧ ∀ o ∈ after, o.touches k = false

theorem stands_iff {value : List String} :
    Stands ops k value ↔ (ops.filterMap (·.says? k)).getLast? = some (some value) := by
  rw [getLast?_filterMap_eq_some_iff]
  constructor
  · rintro ⟨before, after, rfl, hafter⟩
    exact ⟨before, _, after, rfl, (Operation.says?_eq_some_some_iff k _).mpr rfl,
      fun o ho => (Operation.says?_eq_none_iff k o).mpr (hafter o ho)⟩
  · rintro ⟨before, o, after, rfl, ho, hafter⟩
    rw [Operation.says?_eq_some_some_iff] at ho
    subst ho
    exact ⟨before, after, rfl, fun o ho => (Operation.says?_eq_none_iff k o).mp (hafter o ho)⟩

/-- Operations that do not touch a key say nothing of it. -/
theorem stands_filter {value : List String} : Stands (ops.filter (·.touches k)) k value ↔ Stands ops k value := by
  have said (o : Operation) : (if o.touches k then o.says? k else none) = o.says? k := by
    split
    · rfl
    · rename_i h
      rw [(Operation.says?_eq_none_iff k o).mpr (Bool.eq_false_iff.mpr h)]
  rw [stands_iff, stands_iff, List.filterMap_filter]
  simp only [said]

/-- What is remembered in the end is what stands in the log. -/
theorem get_performAll_eq_some_iff {enabled : Bool} {value : List String} :
    ((empty enabled).performAll ops).2.get k = some value ↔ enabled = true ∧ Stands ops k value := by
  cases enabled with
  | false =>
    rw [get_of_disabled k (enabled_performAll _ ops)]
    simp
  | true =>
    rw [get_performAll k ops rfl, get_empty, stands_iff]
    cases (ops.filterMap (·.says? k)).getLast? <;> simp

/-- Whatever has been done with a new cache, and whatever follows, a get answers the value that stands in the log
under its very key, if there is one and the cache is enabled, and nothing otherwise. The operations that touch the
key would have led to the same answer by themselves. Without the get, everything else is answered alike, and the
cache is the same in the end. -/
theorem get_tells_log (enabled : Bool) (before after : List Operation) (k : Key) :
    let run := (empty enabled).performAll
    ∃ answer, (run (before ++ .get k :: after)).1[before.length]? = some answer ∧
      (∀ value, answer = some value ↔ enabled = true ∧ Stands before k value) ∧
      (run (before.filter (·.touches k) ++ [.get k])).1.getLast? = some answer ∧
      (run (before ++ .get k :: after)).1.eraseIdx before.length = (run (before ++ after)).1 ∧
      (run (before ++ .get k :: after)).2 = (run (before ++ after)).2 := by
  intro run
  have whole : run (before ++ .get k :: after) =
      ((run before).1 ++ (run before).2.get k :: ((run before).2.performAll after).1,
        ((run before).2.performAll after).2) := performAll_append _ before _
  have without : run (before ++ after) =
      ((run before).1 ++ ((run before).2.performAll after).1, ((run before).2.performAll after).2) :=
    performAll_append _ before after
  have length : (run before).1.length = before.length := length_performAll _ before
  have alone : (run (before.filter (·.touches k))).2.get k = (run before).2.get k := by
    refine Option.ext fun value => ?_
    rw [get_performAll_eq_some_iff, get_performAll_eq_some_iff, stands_filter]
  refine ⟨(run before).2.get k, ?_, fun value => get_performAll_eq_some_iff k before, ?_, ?_, ?_⟩
  · rw [whole, ← length, List.getElem?_append_right (Nat.le_refl _), Nat.sub_self]
    rfl
  · have few : run (before.filter (·.touches k) ++ [.get k]) = _ := performAll_append _ _ _
    rw [few, ← alone]
    exact List.getLast?_concat
  · rw [whole, without, ← length, List.eraseIdx_append_of_length_le (Nat.le_refl _), Nat.sub_self]
    rfl
  · rw [whole, without]

/-- Keys are told apart by their texts, not by the two in one. -/
example :
    ((empty true).performAll [.set (.tree "https://host/a:b" "c") ["/first"],
      .set (.tree "https://host/a" "b:c") ["/second"], .get (.tree "https://host/a:b" "c")]).1.getLast? =
      some (some ["/first"]) := by decide

end Cache

end HostedGit
