/-!
Contract: what the version control program answers.

Owns:
- `Answer`, the outcome of one call;
- `Script`, the answers by arguments.

Does **not** own: who calls, and what is made of an answer.
-/

set_option autoImplicit false

namespace Provenance.Git

/-- How a call ends besides by exiting. -/
inductive Trouble where
  | timeout
  | missing
  | notADirectory
  | denied
  | interrupt
  deriving DecidableEq, Repr

/-- The outcome of one call. -/
structure Answer (Time : Type) where
  output : List UInt8 := []
  errors : String := ""
  code : Int := 0
  takes : Time
  /-- Whether the call never returns. -/
  hangs : Bool := false
  trouble : Option Trouble := none

/-- The answers by arguments, joined by one blank each. -/
structure Script (Time : Type) where
  answers : List (String × Answer Time) := []
  otherwise : Answer Time

namespace Script

variable {Time : Type}

def key (arguments : List String) : String :=
  " ".intercalate arguments

def answer (script : Script Time) (arguments : List String) : Answer Time :=
  (script.answers.lookup (key arguments)).getD script.otherwise

def set (script : Script Time) (key : String) (answer : Answer Time) : Script Time :=
  { script with
    answers := (key, answer) :: script.answers.filter fun (other, _) => other ≠ key }

end Script
end Provenance.Git
