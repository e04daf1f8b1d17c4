import Provenance.Data.Value
import Provenance.Text.Quoted

/-!
Contract: the text of a value inside a cell or a message.

Owns:
- `Value.display`, where a text stands for itself;
- `Value.inspect`, where a text stands between quotation marks.

Does **not** own: the data formats, and numbers that are too long to be shown.
-/

set_option autoImplicit false

namespace Provenance.Data

open Text (quoted quotedOctets)

/-- A scalar's text, a text itself being quoted. -/
def Scalar.inspect : Scalar → String
  | .null => "None"
  | .bool true => "True"
  | .bool false => "False"
  | .int value => toString value
  | .float value => value.text
  | .text value => quoted value
  | .date value => value.inspect
  | .datetime day clock => Moment.inspect day clock
  | .time value => value.inspect
  | .bytes octets => quotedOctets octets

/-- A scalar's text, a text standing for itself. -/
def Scalar.display : Scalar → String
  | .text value => value
  | .date value => value.text
  | .datetime day clock => Moment.text day clock
  | .time value => value.text
  | other => other.inspect

def inspectSet (members : List Scalar) : String :=
  if members.isEmpty then "set()"
  else "\x7b" ++ ", ".intercalate (members.map Scalar.inspect) ++ "\x7d"

/-- The text of a collection that stands inside itself. -/
def inspectLoop : Kind → String
  | .dict => "\x7b...\x7d"
  | _ => "[...]"

mutual

/-- The text of a value with every text inside it quoted. -/
def Value.inspect : Value → String
  | .scalar value => value.inspect
  | .list items => "[" ++ ", ".intercalate (Value.inspectItems items) ++ "]"
  | .pairs entries => "[" ++ ", ".intercalate (Value.inspectPairs entries) ++ "]"
  | .dict entries => "\x7b" ++ ", ".intercalate (Value.inspectEntries entries) ++ "\x7d"
  | .set members => inspectSet members
  | .link _ kind => inspectLoop kind

def Value.inspectItems : List Value → List String
  | [] => []
  | item :: rest => item.inspect :: Value.inspectItems rest

def Value.inspectPairs : List (Value × Value) → List String
  | [] => []
  | (first, second) :: rest =>
    ("(" ++ first.inspect ++ ", " ++ second.inspect ++ ")") :: Value.inspectPairs rest

def Value.inspectEntries : List (Scalar × Value) → List String
  | [] => []
  | (key, value) :: rest =>
    (key.inspect ++ ": " ++ value.inspect) :: Value.inspectEntries rest

end

/-- The text of a value, a text standing for itself. -/
def Value.display : Value → String
  | .scalar value => value.display
  | other => other.inspect

end Provenance.Data
