/-!
Contract: the variables of a process, in order.

Owns: `Environment` and its operations.

Does **not** own: which variables mean something.
-/

set_option autoImplicit false

namespace Provenance.World

/-- Variables by name, in the order in which they were first set. -/
abbrev Environment := List (String × String)

namespace Environment

def get? (environment : Environment) (name : String) : Option String :=
  List.lookup name environment

/-- The environment with a variable set: in its old place, or at the end. -/
def set (name value : String) : Environment → Environment
  | [] => [(name, value)]
  | (other, old) :: rest =>
    if other = name then (name, value) :: rest else (other, old) :: set name value rest

def unset (environment : Environment) (name : String) : Environment :=
  environment.filter fun (other, _) => other ≠ name

end Environment
end Provenance.World
