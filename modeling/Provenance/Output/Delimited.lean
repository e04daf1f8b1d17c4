import Provenance.Data.Flatten

/-!
Contract: records as rows of delimited cells.

Owns:
- `cellText` and `writeCell`, the text of a value and its quoting;
- `columns`, the header of some rows;
- `write`, the table of a list of records.

Does **not** own: which delimiter a format uses.
-/

set_option autoImplicit false

namespace Provenance.Output.Delimited

open Data (Scalar Value Entries)
open Failure (Fault)

variable [Text.DigitLimit]

/-- The text of a value in a cell; null leaves the cell empty. -/
def cellText : Value → Except Fault String
  | .scalar .null => .ok ""
  | value => value.shown

def needsQuotes (delimiter : Char) (cell : List Char) : Bool :=
  cell.any fun character =>
    character = delimiter || character = '"' || character = '\r' || character = '\n'

/-- A cell as it is written; a quote inside quotes is written twice. -/
def writeCell (delimiter : Char) (cell : List Char) : List Char :=
  if needsQuotes delimiter cell then
    '"' :: Text.replaceAll '"' ['"', '"'] cell ++ ['"']
  else
    cell

/-- The cells of a row; a lone empty cell is quoted so that the row is not blank. -/
def writeCells (delimiter : Char) : List (List Char) → List Char
  | [[]] => ['"', '"']
  | cells => Text.joinWith delimiter (cells.map (writeCell delimiter))

def writeRow (delimiter : Char) (cells : List String) : List Char :=
  writeCells delimiter (cells.map String.toList) ++ ['\r', '\n']

/-- The cells of a row in the order of the columns; a column that the row lacks is empty. -/
def rowCells (columns : List Scalar) (row : Entries) : Except Fault (List String) :=
  columns.mapM fun column => ((row.find? column).map cellText).getD (.ok "")

/-- Keys without repetition, each at its first place. -/
def distinct (keys : List Scalar) : List Scalar :=
  keys.foldl (fun kept key => if kept.any (·.sameKey key) then kept else kept ++ [key]) []

/-- Whether one column comes before another or is the same. -/
def columnLe (left right : Scalar) : Bool :=
  left.display ≤ right.display

/-- The columns of some rows: every key of every row once, ordered by their characters. -/
def columns (rows : List Entries) : List Scalar :=
  (distinct (rows.flatMap Entries.keys)).mergeSort columnLe

/-- The cells of a table: the header, then one list a row. -/
def tableCells (columns : List Scalar) (rows : List Entries) : Except Fault (List (List String)) := do
  let header ← columns.mapM fun column => cellText (.scalar column)
  let lines ← rows.mapM (rowCells columns)
  pure (header :: lines)

def writeRows (delimiter : Char) (rows : List (List String)) : String :=
  String.ofList (rows.flatMap (writeRow delimiter))

/-- The table of a list of records, with the given columns or with those that occur.

Without records there is no table. -/
def write (delimiter : Char) (fields : Option (List Scalar)) (records : List Value) :
    Except Fault (Option String) := do
  let rows ← records.mapM (Data.flatten "." (.text ""))
  if rows.isEmpty then
    pure none
  else
    let cells ← tableCells (fields.getD (columns rows)) rows
    pure (some (writeRows delimiter cells))

end Provenance.Output.Delimited
