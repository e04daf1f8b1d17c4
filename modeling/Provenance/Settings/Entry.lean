import Provenance.Data.Shared
import Provenance.Failure.Fault

/-!
Contract: the look-up of one setting.

Owns: `entryOr`.

Does **not** own: which settings there are, and their defaults.
-/

set_option autoImplicit false

namespace Provenance.Settings

open Data (Value Entries Shared)
open Failure (Fault)

/-- The entry of a dictionary, or a default; what is no dictionary has no entries. -/
def entryOr (name : String) (default : Value) (settings : Shared) : Except Fault Shared :=
  match settings.head with
  | .dict entries => .ok (settings.part ((Entries.get? entries name).getD default))
  | other => .error (.noOperation other.kind "get")

end Provenance.Settings
