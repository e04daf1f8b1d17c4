import Provenance.Failure.Fault

/-!
Contract: the text of a value where a message or an argument needs it.

Owns: `Value.shown` and `Value.shownInspected`, which refuse numbers with too many
digits.

Does **not** own: the texts themselves.
-/

set_option autoImplicit false

namespace Provenance.Data

open Failure (Fault)

variable [Text.DigitLimit]

/-- Whether a scalar is a whole number of too many digits. -/
def Scalar.isTooLong : Scalar → Bool
  | .int value => Text.isTooLong value
  | _ => false

mutual

/-- Whether a whole number of too many digits is in a value. -/
def Value.isTooLong : Value → Bool
  | .scalar value => value.isTooLong
  | .list items => Value.areItemsTooLong items
  | .pairs entries => Value.arePairsTooLong entries
  | .dict entries => Value.areEntriesTooLong entries
  | .set members => members.any Scalar.isTooLong
  | .link .. => false

/-- Whether a whole number of too many digits is in some items. -/
def Value.areItemsTooLong : List Value → Bool
  | [] => false
  | item :: rest => item.isTooLong || Value.areItemsTooLong rest

/-- Whether a whole number of too many digits is in some pairs. -/
def Value.arePairsTooLong : List (Value × Value) → Bool
  | [] => false
  | (first, second) :: rest =>
    first.isTooLong || second.isTooLong || Value.arePairsTooLong rest

/-- Whether a whole number of too many digits is in some entries. -/
def Value.areEntriesTooLong : List (Scalar × Value) → Bool
  | [] => false
  | (key, value) :: rest =>
    key.isTooLong || value.isTooLong || Value.areEntriesTooLong rest

end

namespace Value

/-- The text of a value, a text standing for itself. -/
def shown (value : Value) : Except Fault String :=
  if value.isTooLong then .error .tooLongToWrite else .ok value.display

/-- The text of a value with every text in it quoted. -/
def shownInspected (value : Value) : Except Fault String :=
  if value.isTooLong then .error .tooLongToWrite else .ok value.inspect

end Value
end Provenance.Data
