import Provenance.Failure.Shown

/-!
Contract: a nested dictionary as one level of entries.

Owns: `flatten`, whose keys are the paths of the values.

Does **not** own: the columns and rows made of the entries.
-/

set_option autoImplicit false

namespace Provenance.Data

open Failure (Fault)

variable [Text.DigitLimit]

/-- The key of an entry below a parent key; below an empty one it is the entry's own. -/
def pathKey (separator : String) (parent key : Scalar) : Except Fault Scalar :=
  if (Value.scalar parent).isTruthy then do
    let parent ← (Value.scalar parent).shown
    let key ← (Value.scalar key).shown
    pure (.text (parent ++ separator ++ key))
  else
    .ok key

/-- The texts of some items, between commas. -/
def cellOfList (items : List Value) : Except Fault String :=
  (items.mapM Value.shown).map (", ".intercalate ·)

/-- The texts of some pairs, between commas. -/
def cellOfPairs (entries : List (Value × Value)) : Except Fault String :=
  if Value.arePairsTooLong entries then .error .tooLongToWrite
  else .ok (", ".intercalate (Value.inspectPairs entries))

mutual

/-- The entries that one value under `key` contributes. -/
def flattenValue (separator : String) (key : Scalar) : Value → Except Fault Entries
  | .list items => (cellOfList items).map fun text => [(key, .text text)]
  | .pairs entries => (cellOfPairs entries).map fun text => [(key, .text text)]
  | .dict entries => (flattenEntries separator key entries).map Entries.ofList
  | other => .ok [(key, other)]

/-- The contributions of some entries below `parent`, in order. -/
def flattenEntries (separator : String) (parent : Scalar) :
    List (Scalar × Value) → Except Fault Entries
  | [] => .ok []
  | (key, value) :: rest => do
    let path ← pathKey separator parent key
    let first ← flattenValue separator path value
    let others ← flattenEntries separator parent rest
    pure (first ++ others)

end

/-- The entries of a dictionary and of those inside it, each under its path. -/
def flatten (separator : String) (parent : Scalar) : Value → Except Fault Entries
  | .dict entries => (flattenEntries separator parent entries).map Entries.ofList
  | other => .error (.noOperation other.kind "items")

end Provenance.Data
