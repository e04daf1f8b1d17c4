import Provenance.World.Basic

/-!
Contract: what a run says about itself on standard error.

Owns:
- `Progress`, whether it says anything and in colours;
- `Progress.start` and `Progress.current`, what is not decided being found out;
- `say`, `warn` and `complain`.

Does **not** own: the log, and data on standard output.
-/

set_option autoImplicit false

namespace Provenance

/-- How a run speaks. -/
structure Progress where
  isEnabled : Bool
  hasColours : Bool
  deriving DecidableEq, Repr

namespace Progress

variable {Time : Type}

/-- Progress as it is asked for; what is not said follows from the terminal. -/
def start (isEnabled hasColours : Option Bool) : Program Time Progress := do
  let world ← Program.world
  let mayColour := world.isTerminal && (world.environment.get? "NO_COLOR").isNone
  pure ⟨isEnabled.getD world.isTerminal, hasColours.getD mayColour⟩

def wanted? (environment : World.Environment) : Option Bool :=
  match environment.get? "GITMETA_PROGRESS" with
  | some "1" => some true
  | some "0" => some false
  | _ => none

/-- The progress of a run: the known one, unless something else is asked for. -/
def current (known : Option Progress) (isEnabled : Option Bool) : Program Time Progress := do
  match known, isEnabled with
  | some progress, none => pure progress
  | none, none => do
    let world ← Program.world
    start (wanted? world.environment) none
  | _, some choice => start (some choice) none

def coloured (progress : Progress) (code text : String) : String :=
  if progress.hasColours then "\x1b[" ++ code ++ "m" ++ text ++ "\x1b[0m" else text

/-- Says something, if anything is to be said. -/
def say (progress : Progress) (message : String) : Program Time Unit :=
  if progress.isEnabled then Program.reportLine message else pure ()

/-- Warns, if anything is to be said. -/
def warn (progress : Progress) (message : String) : Program Time Unit :=
  progress.say (progress.coloured "33" ("WARNING: " ++ message))

def complain (progress : Progress) (message : String) : Program Time Unit :=
  Program.reportLine (progress.coloured "31" ("ERROR: " ++ message))

end Progress
end Provenance
