import Provenance.Json.Reader
import Provenance.Json.Writer
import Provenance.Path
import Provenance.Text.Case
import Provenance.Toml.Reader
import Provenance.Toml.Writer
import Provenance.World.Disk
import Provenance.Yaml.Reader
import Provenance.Yaml.Writer

/-!
Contract: the three forms of a settings file.

Owns:
- `Dialect` and the endings of its files' names;
- `Dialect.read`, the settings in a file's octets;
- `Dialect.draft`, the text of settings as far as it can be written.

Does **not** own: where the files are.
-/

set_option autoImplicit false

namespace Provenance.Settings

open Data (Value Shared)
open Failure (Fault)

/-- The forms of a settings file. -/
inductive Dialect where
  | json
  | toml
  | yaml
  deriving DecidableEq, Repr

namespace Dialect

/-- The form of a file by the ending of its name. -/
def ofPath (path : String) : Dialect :=
  match Text.lower (Path.ending path) with
  | ".toml" => .toml
  | ".yaml" => .yaml
  | ".yml" => .yaml
  | _ => .json

/-- The settings in a file's octets; a YAML document that is empty or false holds none.  Only YAML
has shared parts. -/
def read (dialect : Dialect) (octets : List UInt8) : Except Fault Shared :=
  match dialect with
  | .toml =>
    match Text.Utf8.decodeStrict octets with
    | .ok characters => .plain <$> Toml.read (String.ofList characters)
    | .error error => .error (.notText error.message)
  | .yaml => do
    let text ← World.Disk.textOf octets
    let settings ← Yaml.read text
    pure (if settings.isTruthy then settings else .plain (.dict []))
  | .json => do
    let text ← World.Disk.textOf octets
    .plain <$> Json.read text

/-- The text of settings as far as it can be written.  Only JSON is written while the settings are
walked; the others are written as a whole or not at all. -/
def draft (dialect : Dialect) (settings : Value) : Json.Draft :=
  match dialect with
  | .json => Json.draft .asciiPretty settings
  | .yaml => .ofResult (Yaml.dump .settings settings)
  | .toml => .ofResult (Toml.write settings)

end Dialect
end Provenance.Settings
