import Provenance.Data.Value

/-!
Contract: the parts of a value whose shape is known.

Owns: `entry?`, `text?`, `items` and `entries`.

Does **not** own: what is done about a part that is not there.
-/

set_option autoImplicit false

namespace Provenance.Data.Value

def entry? (name : String) : Value → Option Value
  | .dict entries => Entries.get? entries name
  | _ => none

def text? : Value → Option String
  | .scalar (.text text) => some text
  | _ => none

def bool? : Value → Option Bool
  | .scalar (.bool value) => some value
  | _ => none

def int? : Value → Option Int
  | .scalar (.int value) => some value
  | _ => none

/-- The items of a list; anything else has none. -/
def items : Value → List Value
  | .list items => items
  | _ => []

/-- The entries of a dictionary; anything else has none. -/
def entries : Value → Entries
  | .dict entries => entries
  | _ => []

/-- The text under a name, or another one. -/
def textOr (name other : String) (value : Value) : String :=
  ((value.entry? name).bind text?).getD other

def itemsOf (name : String) (value : Value) : List Value :=
  ((value.entry? name).map items).getD []

def entriesOf (name : String) (value : Value) : Entries :=
  ((value.entry? name).map entries).getD []

end Provenance.Data.Value
