import Provenance.Record
import Provenance.Table.Columns
import Provenance.Table.Markup

/-!
Contract: a record as a table with rounded borders.

Owns:
- `Table`, a title with a heading and rows of markup texts;
- `lines`, the table on a console of some width;
- `ofRecord`, the table of a record.

Does **not** own: markup and the breaking of lines.
-/

set_option autoImplicit false

namespace Provenance

open Data (Value)
open Failure (Fault)

/-- A title over a heading and rows of cells.  All texts are markup. -/
structure Table where
  /-- The title; an empty one is not shown. -/
  title : String
  heading : List String
  rows : List (List String)
  deriving DecidableEq, Repr

namespace Table

def border (left middle right : Char) (widths : List Nat) : List Char :=
  left :: [middle].intercalate (widths.map fun width => List.replicate width '─') ++ [right]

/-- The lines of a cell: its text between one blank on either side. -/
def cellLines (width : Nat) (text : List Char) : List (List Char) :=
  if width < padding + 1 then []
  else (wrapLeft (width - padding) text).map fun line => ' ' :: line ++ [' ']

/-- The line of a row with some number, in which a cell that has ended is blank. -/
def rowLine (number : Nat) (row : List (Nat × List (List Char))) : List Char :=
  let parts := row.map fun (width, lines) => (lines[number]?).getD (blanks width)
  '│' :: ['│'].intercalate parts ++ ['│']

/-- The lines of a row, of which there is at least one. -/
def rowLines (widths : List Nat) (texts : List (List Char)) : List (List Char) :=
  let row := (widths.zip texts).map fun (width, text) => (width, cellLines width text)
  let height := (row.map fun (_, lines) => lines.length).foldl max 1
  (List.range height).map fun number => rowLine number row

def columnsOf (count : Nat) (rows : List (List (List Char))) : List (List (List Char)) :=
  (List.range count).map fun index => rows.filterMap (·[index]?)

def bodyLines (widths : List Nat) (heading : List (List Char)) (rows : List (List (List Char))) :
    List (List Char) :=
  [border '╭' '┬' '╮' widths] ++ rowLines widths heading ++ [border '├' '┼' '┤' widths] ++
    rows.flatMap (rowLines widths) ++ [border '╰' '┴' '╯' widths]

/-- A table on a console of some width, without colours.  The title stands in the middle above the
table, and what does not fit on the console is cut off. -/
def lines (table : Table) (width : Nat) : Except Fault (List String) := do
  let heading ← table.heading.mapM Markup.visible
  let rows ← table.rows.mapM fun row => row.mapM Markup.visible
  let title ← Markup.visible table.title
  let edges := heading.length + 1
  let widths := columnWidths (width - edges) (columnsOf heading.length (heading :: rows))
  let titleLines := if table.title.isEmpty then [] else wrapCentred (totalWidth widths + edges) title
  let all := titleLines ++ bodyLines widths heading rows
  pure (all.map fun line => String.ofList (fitting width line))

/-- The markup of a value that is shown: a list in one line, a stroke where there is nothing. -/
def valueMarkup (value : Value) : String :=
  let text :=
    match value with
    | .list items => ", ".intercalate (items.map Value.display)
    | other => other.display
  if text.isEmpty then "[dim]-[/dim]" else Markup.escape text

/-- The table of a record.  Without a title it bears the root of the repository. -/
def ofRecord (record : Record) (title : String) : Table :=
  {
    title := Record.firstGiven title record.baseDir
    heading := ["Field", "Value"]
    rows := record.fields.map fun (name, value) => [name, valueMarkup value]
  }

end Table
end Provenance
