/-
The command line program. It has no network of its own: no remote can be reached by it.
-/
import HostedGit.Program

open HostedGit

/-- Runs the program on the words of its command line. -/
def main (words : List String) : IO UInt32 := do
  let env : Environment := ⟨← IO.getEnv "REPOFETCH_USERNAME", ← IO.getEnv "REPOFETCH_PASSWORD"⟩
  let (outcome, _) := (Program.run env words).run (.start .unreachable .empty "archive.zip")
  IO.print outcome.output
  IO.eprint outcome.errors
  return outcome.exitCode.toUInt32
