import Provenance.Failure.Fault
import Provenance.Failure.Problem

/-!
Contract: everything a run can end with besides a result.

Owns:
- `Failure`, a problem or a fault, with its class, message and exit code;
- `exitCodeOf`, the exit code of a class of faults.

Does **not** own: who catches which failure.
-/

set_option autoImplicit false

namespace Provenance

open Failure (Problem Fault GitProblem)

/-- A problem of the program's own, or a fault from outside. -/
inductive Failure where
  | problem (own : Failure.Problem)
  | fault (cause : Failure.Fault)
  deriving DecidableEq, Repr

namespace Failure

/-- A problem with version control, with a detail. -/
def git (kind : GitProblem) (detail : String) : Failure :=
  .problem (.ofDetail kind detail)

def exitCodeOf (className : String) : Nat :=
  match className with
  | "FileNotFoundError" => ExitCode.badPath
  | "NotADirectoryError" => ExitCode.badPath
  | "PermissionError" => ExitCode.permissionDenied
  | "TimeoutError" => ExitCode.timedOut
  | "ValueError" => ExitCode.badData
  | "KeyError" => ExitCode.badData
  | "JSONDecodeError" => ExitCode.badData
  | "KeyboardInterrupt" => ExitCode.interrupted
  | _ => ExitCode.generalError

def className : Failure → String
  | .problem own => own.name
  | .fault cause => cause.className

def message [Text.DigitLimit] : Failure → String
  | .problem own => own.message
  | .fault cause => cause.message

def exitCode : Failure → Int
  | .problem own => own.exitCode
  | .fault cause => exitCodeOf cause.className

end Failure
end Provenance
