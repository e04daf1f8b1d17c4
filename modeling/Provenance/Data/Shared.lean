import Provenance.Data.Part

/-!
Contract: values whose collections may be shared, or stand inside themselves.

Owns:
- `Shared`, a value beside the numbered cells that its links lead to;
- `Shared.head`, the collection that a link stands for;
- `Shared.value`, the value with every link replaced by what it leads to.

Does **not** own: which documents have shared parts.

## Why cells

Two places of a document may hold one and the same collection.  What is changed in
it at one place is then changed at the other.  So such a collection stands in a cell,
and each of its places holds a link to the cell.  A value without shared parts needs
no cells.

## Loops

Without its links, a collection inside itself would never end.  So a link stays
where the collection that it leads to is already around it, and such a link is all
that the text of a value shows of a loop.
-/

set_option autoImplicit false

namespace Provenance.Data

mutual

def Value.mapLinks (change : Nat → Kind → Value) : Value → Value
  | .scalar value => .scalar value
  | .list items => .list (Value.mapItemLinks change items)
  | .pairs entries => .pairs (Value.mapPairLinks change entries)
  | .dict entries => .dict (Value.mapEntryLinks change entries)
  | .set members => .set members
  | .link cell kind => change cell kind

def Value.mapItemLinks (change : Nat → Kind → Value) : List Value → List Value
  | [] => []
  | item :: rest => item.mapLinks change :: Value.mapItemLinks change rest

def Value.mapPairLinks (change : Nat → Kind → Value) : List (Value × Value) → List (Value × Value)
  | [] => []
  | (first, second) :: rest =>
    (first.mapLinks change, second.mapLinks change) :: Value.mapPairLinks change rest

def Value.mapEntryLinks (change : Nat → Kind → Value) :
    List (Scalar × Value) → List (Scalar × Value)
  | [] => []
  | (key, value) :: rest => (key, value.mapLinks change) :: Value.mapEntryLinks change rest

end

/-- The collections that links lead to, by their numbers. -/
abbrev Cells := Array Value

namespace Cells

/-- What a value stands for: the content of its cell if it is a link, else itself. -/
def resolve (cells : Cells) : Value → Value
  | .link cell kind => cells[cell]?.getD (.link cell kind)
  | other => other

/-- The value with links replaced through so many levels, save those to the cells around it. -/
def unfold (cells : Cells) : Nat → List Nat → Value → Value
  | 0, _, value => value
  | levels + 1, around, value =>
    value.mapLinks fun cell kind =>
      if around.contains cell then .link cell kind
      else unfold cells levels (cell :: around) (cells.resolve (.link cell kind))

end Cells

/-- A value and the cells that the links in it lead to. -/
structure Shared where
  root : Value
  cells : Cells := #[]
  deriving Repr

namespace Shared

def plain (value : Value) : Shared := { root := value }

instance : Inhabited Shared := ⟨.plain .null⟩

/-- The value itself, if it is a link the collection that it leads to. -/
def head (shared : Shared) : Value :=
  shared.cells.resolve shared.root

/-- A part of the value: its links lead to the same cells. -/
def part (shared : Shared) (value : Value) : Shared :=
  { shared with root := value }

def isTruthy (shared : Shared) : Bool :=
  shared.head.isTruthy

/-- The value with every link replaced by what it leads to, as far as there are no loops.  No more
cells can be around one another than there are cells. -/
def value (shared : Shared) : Value :=
  shared.cells.unfold (shared.cells.size + 1) [] shared.root

end Shared
end Provenance.Data
