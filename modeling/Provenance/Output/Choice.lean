import Provenance.Data.Value
import Provenance.Output.Format
import Provenance.Text.Case
import Provenance.World.Environment

/-!
Contract: which output format is asked for.

Owns: `choose`, the environment's word over a default.

Does **not** own: the format that a command line names, which goes before both.
-/

set_option autoImplicit false

namespace Provenance.Output

open Data (Scalar Value)
open Failure (Fault)
open World (Environment)

def formatVariable : String := "GITMETA_FORMAT"

/-- The format's word in lower case, if a word is one. -/
def formatWord? (word : String) : Option String :=
  (Format.ofName? (Text.lower word)).map Format.name

/-- What is asked for: the environment's word, else the default's.

A word that names no format leaves the default as it stands.  Only without a word
in the environment does the default have to be a text, or octets, which name no format. -/
def choose (environment : Environment) (default : Value) : Except Fault Value :=
  match environment.get? formatVariable with
  | some word => .ok (((formatWord? word).map Value.text).getD default)
  | none =>
    match default with
    | .scalar (.text word) => .ok (((formatWord? word).map Value.text).getD default)
    | .scalar (.bytes _) => .ok default
    | other => .error (.noOperation other.kind "lower")

end Provenance.Output
