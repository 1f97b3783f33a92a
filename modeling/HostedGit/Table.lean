/-
A table as a list of rows, at most one for each key. `lookup` is the view that everything else is said
through.
-/
namespace HostedGit

/-- Rows of a key and a value. -/
structure Table (κ α : Type) where
  rows : List (κ × α)

namespace Table

variable {κ α : Type}

/-- No rows. -/
def empty : Table κ α := ⟨[]⟩

variable [DecidableEq κ]

/-- The value at a key. -/
def lookup (t : Table κ α) (k : κ) : Option α := t.rows.lookup k

/-- Drops the row of a key. -/
def erase (t : Table κ α) (k : κ) : Table κ α := ⟨t.rows.filter fun row => row.1 ≠ k⟩

/-- Puts a value at a key, in place of any earlier one. -/
def insert (t : Table κ α) (k : κ) (a : α) : Table κ α := ⟨(k, a) :: (t.erase k).rows⟩

theorem lookup_erase (t : Table κ α) (k l : κ) :
    (t.erase k).lookup l = if l = k then none else t.lookup l := by
  unfold erase lookup
  induction t.rows with
  | nil => simp
  | cons row rest ih =>
    obtain ⟨j, a⟩ := row
    rw [List.filter_cons, List.lookup_cons]
    grind

theorem lookup_insert (t : Table κ α) (k l : κ) (a : α) :
    (t.insert k a).lookup l = if l = k then some a else t.lookup l := by
  have h := lookup_erase t k l
  unfold insert lookup at *
  rw [List.lookup_cons, h]
  grind

end Table

end HostedGit
