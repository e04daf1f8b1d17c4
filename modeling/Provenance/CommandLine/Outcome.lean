import Provenance.CommandLine.Run

/-!
Contract: what a run of the command line leaves behind.

Owns:
- `Outcome`, the exit code with the two streams;
- `outcomeIn`, the outcome of a run in a world.

Does **not** own: what a run does.
-/

set_option autoImplicit false

namespace Provenance.CommandLine

open Data (Value)

/-- What a run leaves behind. -/
structure Outcome where
  exitCode : Int
  output : String
  errors : String
  /-- A failure that nothing in the run has dealt with. -/
  uncaught : Option Failure := none
  deriving DecidableEq, Repr

/-- The outcome of a run in a world, and the world after it.  The run has a trace of its own. -/
def outcomeIn (world : World Value) (words : List String) : Outcome × World Value :=
  let (result, after) := (run words).runIn { world with trace := [] }
  let output := World.output after.trace
  let errors := Journal.errorOutput after.trace
  match result with
  | .ok code => (⟨code, output, errors, none⟩, after)
  | .error failure => (⟨Failure.ExitCode.generalError, output, errors, some failure⟩, after)

end Provenance.CommandLine
