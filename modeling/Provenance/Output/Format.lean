import Provenance.Failure.Shown
import Provenance.Json.Writer
import Provenance.Output.Delimited
import Provenance.Yaml.Writer

/-!
Contract: the output formats for lists of records.

Owns:
- `Format` and the words for its members;
- `chunks`, the texts that a list of records is printed as.

Does **not** own: where the texts are printed and which format is chosen.
-/

set_option autoImplicit false

namespace Provenance.Output

open Data (Scalar Value)
open Failure (Fault)

/-- The output formats. -/
inductive Format where
  | jsonl
  | json
  | yaml
  | csv
  | tsv
  deriving DecidableEq, Repr

namespace Format

/-- The formats in the order in which they are listed. -/
def all : List Format := [.jsonl, .json, .yaml, .csv, .tsv]

def name : Format → String
  | .jsonl => "jsonl"
  | .json => "json"
  | .yaml => "yaml"
  | .csv => "csv"
  | .tsv => "tsv"

def ofName? (word : String) : Option Format :=
  all.find? fun format => format.name == word

variable [Text.DigitLimit]

/-- The format that a value names; a value that names none is a fault. -/
def ofValue (value : Value) : Except Fault Format :=
  match value with
  | .scalar (.text word) =>
    match ofName? word with
    | some format => .ok format
    | none => .error (.unknownFormat word)
  | other => other.shown >>= fun text => .error (.unknownFormat text)

/-- The texts that a list of records is printed as. -/
def chunks (format : Format) (records : List Value) (fields : Option (List Scalar)) :
    Except Fault (List String) :=
  match format with
  | .jsonl => records.mapM (Json.write .line)
  | .json => (Json.write .pretty (.list records)).map ([·])
  | .yaml => (Yaml.dump .records (.list records)).map ([·])
  | .csv => (Delimited.write ',' fields records).map Option.toList
  | .tsv => (Delimited.write '\t' fields records).map Option.toList

end Format
end Provenance.Output
