/-
What the environment has to do with reading a command line: it says what neither the words before a command nor
those after it say, and nothing else. A command line that is not read without it is not read with it.
-/
import HostedGit.CommandLine.Parser

namespace HostedGit

/-- An environment that says nothing. -/
def Environment.silent : Environment := ⟨none, none⟩

namespace Arguments

/-- A command line, and what an environment says where it says nothing. -/
def under (env : Environment) (a : Arguments) : Arguments :=
  { a with username := a.username <|> env.username, password := a.password <|> env.password }

theorem ofScans_eq_under (env : Environment) (outer inner : Scan) (name : CommandName) :
    ofScans env outer inner name = (ofScans .silent outer inner name).under env := by
  have alone (x y : Option String) : ((x <|> none) <|> y) = (x <|> y) := by cases x <;> rfl
  unfold ofScans under Environment.silent
  simp only [alone]

/-- The words of both levels, which no environment has a part in. -/
def scans (words : List String) : Except UsageError (Scan × Option (Scan × CommandName)) := do
  let (outer, command) ← (Scan.start none).run none words
  match command with
  | none => return (← outer.settle, none)
  | some (name, words) =>
    let (inner, _) ← (Scan.start (some name)).run (some name) words
    let inner ← inner.settle
    if !inner.isComplete (some name) then throw .missingArgument
    return (← outer.settle, some (inner, name))

theorem parse_eq (env : Environment) (words : List String) : parse env words = (do
    match ← scans words with
    | (outer, none) => throw (withoutCommand env outer)
    | (outer, some (inner, name)) => return ofScans env outer inner name) := by
  unfold parse scans
  simp only [bind, Except.bind]
  rcases (Scan.start none).run none words with e | ⟨outer, _ | ⟨name, inside⟩⟩
  · rfl
  · dsimp only
    cases outer.settle <;> rfl
  · dsimp only
    rcases (Scan.start (some name)).run (some name) inside with e | ⟨inner, rest⟩
    · rfl
    dsimp only
    rcases inner.settle with e | inner
    · rfl
    dsimp only
    split
    · rfl
    cases outer.settle <;> rfl

/-- The words are read alike in any environment. Only the reason may change for which they are not, where nothing is
said at all. -/
theorem parse_cases (env : Environment) (words : List String) :
    (∃ a, parse .silent words = .ok a ∧ parse env words = .ok (a.under env)) ∨
      ∃ e e', parse .silent words = .error e ∧ parse env words = .error e' ∧
        (e' = e ∨ e = .nothingGiven ∧ e' = .missingCommand) := by
  rw [parse_eq, parse_eq]
  rcases scans words with e | ⟨outer, _ | ⟨inner, name⟩⟩
  · exact .inr ⟨e, e, rfl, rfl, .inl rfl⟩
  · refine .inr ⟨_, _, rfl, rfl, ?_⟩
    unfold withoutCommand Environment.silent
    cases outer.found.rows.isEmpty
    · exact .inl rfl
    · by_cases h : env.username.isNone && env.password.isNone <;> simp [h]
  · exact .inl ⟨_, rfl, congrArg Except.ok (ofScans_eq_under env outer inner name)⟩

end Arguments

end HostedGit
