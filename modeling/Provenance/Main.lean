import Provenance.CommandLine.Outcome
import Provenance.World.Snapshot

/-!
Contract: the program.

Owns: `main`, which reads the description of a world from standard input, runs
the command line in it, and writes the two streams.

Does **not** own: any rule.  `Provenance.World.Snapshot` says how a world is
described.
-/

set_option autoImplicit false

open Provenance

/-- Runs the words of the command line in the world that standard input describes. -/
def main (words : List String) : IO UInt32 := do
  let input ← IO.getStdin
  let output ← IO.getStdout
  let errors ← IO.getStderr
  let description ← input.readToEnd
  match Json.read description with
  | .error fault =>
    errors.putStrLn (fault.className ++ ": " ++ fault.message)
    pure 1
  | .ok document =>
    let world := World.Snapshot.extend World.Snapshot.empty document
    let (outcome, _) := CommandLine.outcomeIn world words
    output.putStr outcome.output
    errors.putStr outcome.errors
    match outcome.uncaught with
    | some failure => errors.putStrLn (failure.className ++ ": " ++ failure.message)
    | none => pure ()
    pure (UInt32.ofNat outcome.exitCode.toNat)
