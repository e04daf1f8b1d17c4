import Provenance.Data.Display
import Provenance.Failure.Shown

/-!
Contract: settings written as a TOML document.

Owns:
- `quotedText`, a text between double quotes;
- `Section`, the lines of a table beside the tables inside it;
- `write`, the document of a dictionary.

Does **not** own: reading TOML.

## The order of a document

A table's plain entries come first, then its lists of tables with all that is
inside them, and then, level by level, the tables inside it.  A list with a
table among its items is a list of tables.  A null entry is left out.

## What quoting does to invisible characters

A text is first written with visible characters only.  The two-digit escapes
among them are then taken apart and joined again by `x` or by `u00`, depending on
the backslashes that stand before; the escape at the very beginning of a text
loses its mark, and a text that is nothing but one such escape cannot be written.
-/

set_option autoImplicit false

namespace Provenance.Toml

open Data (Scalar Value Entries inspectSet)
open Failure (Fault)

/-! ## Texts -/

def escapePieces : List Char → List (List Char)
  | [] => [[]]
  | '\\' :: 'x' :: rest => [] :: escapePieces rest
  | head :: rest =>
    match escapePieces rest with
    | [] => [[head]]
    | piece :: others => (head :: piece) :: others

/-- A text with every two backslashes in a row made one. -/
def halveBackslashes : List Char → List Char
  | '\\' :: '\\' :: rest => '\\' :: halveBackslashes rest
  | head :: rest => head :: halveBackslashes rest
  | [] => []

/-- What joins a piece to the next one: a plain `x` after no backslash or an odd number of them,
where the first character of the piece is not counted. -/
def joint (piece : List Char) : List Char :=
  let marks := (piece.reverse.takeWhile (· = '\\')).length
  let counted := min marks (piece.length - 1)
  if (marks = 0) = (counted % 2 = 0) then ['x'] else ['u', '0', '0']

/-- The pieces put together again, given the first one. -/
def joinPieces : List Char → List (List Char) → Except Fault (List Char)
  | first, [] => .ok first
  | [], [next] =>
    .error (.outOfRange
      (if next.isEmpty then "string index out of range" else "list index out of range"))
  | [], next :: third :: rest =>
    let head := halveBackslashes next
    if head.isEmpty then .error (.outOfRange "string index out of range")
    else joinPieces (head ++ joint head ++ third) rest
  | first, next :: rest =>
    let head := halveBackslashes first
    joinPieces (head ++ joint head ++ next) rest

/-- The characters of a visible text between single quotes, made fit for double quotes. -/
def requote : List Char → List Char
  | '\\' :: '\'' :: rest => '\'' :: requote rest
  | '"' :: rest => '\\' :: '"' :: requote rest
  | head :: rest => head :: requote rest
  | [] => []

/-- The characters between the quotation marks of a visible text. -/
def innerText (visible : List Char) : List Char :=
  match visible with
  | '\'' :: rest => requote rest.dropLast
  | '"' :: rest => rest.dropLast
  | other => other

def quotedVisible (visible : String) : Except Fault String :=
  match escapePieces (innerText visible.toList) with
  | [] => .ok "\"\""
  | first :: rest =>
    (joinPieces first rest).map fun characters => "\"" ++ String.ofList characters ++ "\""

def quotedText (text : String) : Except Fault String :=
  quotedVisible (Text.quoted text)

/-- Whether a character may stand in a key without quotes. -/
def isPlainKey (character : Char) : Bool :=
  character.isAlphanum || character = '_' || character = '-'

/-- Whether a key needs no quotes; a line feed at its end does not count. -/
def needsNoQuotes (key : List Char) : Bool :=
  let body := if key.getLast? = some '\n' then key.dropLast else key
  !body.isEmpty && body.all isPlainKey

def keyText (key : String) : Except Fault String :=
  if needsNoQuotes key.toList then .ok key else quotedText key

/-! ## Values -/

/-- The text of a floating-point number: an exponent has no leading zero. -/
def floatText (value : Number.Binary64) : String :=
  let rec trimExponent : List Char → List Char
    | 'e' :: sign :: '0' :: rest =>
      if sign = '+' || sign = '-' then 'e' :: sign :: rest
      else 'e' :: trimExponent (sign :: '0' :: rest)
    | head :: rest => head :: trimExponent rest
    | [] => []
  String.ofList (trimExponent value.text.toList)

def scalarText : Scalar → Except Fault String
  | .null => quotedVisible Scalar.null.inspect
  | .bool value => .ok (if value then "true" else "false")
  | .int value => (Value.int value).shown
  | .float value => .ok (floatText value)
  | .text value => quotedText value
  | other => .ok other.display

mutual

/-- The written form of a value on one line; of a dictionary only the keys are left. -/
def valueText : Value → Except Fault String
  | .scalar value => scalarText value
  | .list items => do
    let texts ← itemTexts items
    pure ("[" ++ String.join texts ++ "]")
  | .pairs entries => do
    let texts ← pairTexts entries
    pure ("[" ++ String.join texts ++ "]")
  | .dict entries => do
    let texts ← entries.mapM fun (key, _) => do
      let text ← scalarText key
      pure (" " ++ text ++ ",")
    pure ("[" ++ String.join texts ++ "]")
  | .set members => .ok (inspectSet members)
  | .link .. => .error .circular

/-- The items of a list, each with the comma behind it. -/
def itemTexts : List Value → Except Fault (List String)
  | [] => pure []
  | item :: rest => do
    let text ← valueText item
    let texts ← itemTexts rest
    pure ((" " ++ text ++ ",") :: texts)

/-- The pairs of a list, each as a list of two with the comma behind it. -/
def pairTexts : List (Value × Value) → Except Fault (List String)
  | [] => pure []
  | (first, second) :: rest => do
    let firstText ← valueText first
    let secondText ← valueText second
    let texts ← pairTexts rest
    pure ((" [ " ++ firstText ++ ", " ++ secondText ++ ",],") :: texts)

end

/-! ## Tables -/

/-- Tables by their written names, in order. -/
abbrev Tables := List (String × Value)

/-- Tables with one more; a name that is there keeps its place. -/
def Tables.add (name : String) (table : Value) : Tables → Tables
  | [] => [(name, table)]
  | (other, old) :: rest =>
    if other = name then (name, table) :: rest else (other, old) :: Tables.add name table rest

/-- The lines of a table beside the tables inside it. -/
structure Section where
  lines : String := ""
  arrays : String := ""
  tables : Tables := []

namespace Section

def text (part : Section) : String :=
  part.lines ++ part.arrays

end Section

def below (above name : String) : String :=
  if above.isEmpty then name else above ++ "." ++ name

/-- Whether a value is a list with a table among its items. -/
def isTableList : Value → Bool
  | .list items => items.any fun
    | .dict _ => true
    | _ => false
  | _ => false

section Nested

variable (section_ : String → Value → Except Fault Section)

/-- One table inside an item of a list: its lines, if it has any, and the tables it leaves. -/
def addNested (path : String) (built : String × Tables) (table : String × Value) :
    Except Fault (String × Tables) := do
  let name := path ++ "." ++ table.1
  let part ← section_ name table.2
  let text := if part.text.isEmpty then "" else "[" ++ name ++ "]\n" ++ part.text
  let tables := part.tables.foldl
    (fun tables (inner, value) => Tables.add (table.1 ++ "." ++ inner) value tables) built.2
  pure (built.1 ++ text, tables)

/-- The tables inside an item of a list, level by level. -/
def nestedText (path : String) : Nat → Tables → Except Fault String
  | 0, _ => pure ""
  | _ + 1, [] => pure ""
  | levels + 1, tables => do
    let (text, inner) ← tables.foldlM (addNested section_ path) ("", [])
    let rest ← nestedText path levels inner
    pure (text ++ rest)

/-- An item of a list of tables with all that is inside it. -/
def itemText (levels : Nat) (path : String) (item : Value) : Except Fault String := do
  let part ← section_ path item
  let nested ← nestedText section_ path levels part.tables
  let heading := "[[" ++ path ++ "]]\n"
  pure <|
    if Text.startsWith "[" part.text then heading ++ "\n" ++ part.text ++ nested
    else heading ++ part.text ++ "\n" ++ nested

def putEntry (levels : Nat) (above : String) (entries : Entries) (built : Section)
    (entry : Scalar × Value) : Except Fault Section := do
  let key := entry.1.display
  let name ← keyText key
  match Entries.get? entries key with
  | none => .error (.notFound (Text.quoted key))
  | some (.dict inner) => pure { built with tables := Tables.add name (.dict inner) built.tables }
  | some (.scalar .null) => pure built
  | some (.list items) =>
    if isTableList (.list items) then do
      let texts ← items.mapM (itemText section_ levels (below above name))
      pure { built with arrays := built.arrays ++ String.join texts }
    else do
      let text ← valueText (.list items)
      pure { built with lines := built.lines ++ name ++ " = " ++ text ++ "\n" }
  | some value => do
    let text ← valueText value
    pure { built with lines := built.lines ++ name ++ " = " ++ text ++ "\n" }

end Nested

/-- The section of a value under a name.  What is no dictionary has no keys: an empty list or text
is an empty section, anything else a fault. -/
def sectionOf : Nat → String → Value → Except Fault Section
  | 0, _, _ => .ok {}
  | levels + 1, above, .dict entries =>
    entries.foldlM (putEntry (sectionOf levels) levels above entries) {}
  | _ + 1, _, .list [] => .ok {}
  | _ + 1, _, .list (item :: _) =>
    match keyText item.display with
    | .error fault => .error fault
    | .ok _ => .error .listIndexedByText
  | _ + 1, _, .scalar (.text text) =>
    match text.toList with
    | [] => .ok {}
    | head :: _ =>
      match keyText (String.singleton head) with
      | .error fault => .error fault
      | .ok _ => .error .textIndexedByText
  | _ + 1, _, .pairs [] => .ok {}
  | _ + 1, _, .pairs (_ :: _) => .error .listIndexedByText
  | _ + 1, _, other => .error (.notIterable other.kind)

mutual

def depth : Value → Nat
  | .list items => depthOfItems items + 1
  | .dict entries => depthOfEntries entries + 1
  | _ => 1

def depthOfItems : List Value → Nat
  | [] => 0
  | item :: rest => max (depth item) (depthOfItems rest)

/-- The greatest depth among the values of some entries. -/
def depthOfEntries : List (Scalar × Value) → Nat
  | [] => 0
  | (_, value) :: rest => max (depth value) (depthOfEntries rest)

end

/-- The text with an empty line at its end, unless it is empty or has one. -/
def spaced (text : String) : String :=
  if text.isEmpty || Text.endsWith "\n\n" text then text else text ++ "\n"

/-- A document with one table more, beside the tables inside that one.  A table that only holds
tables has no heading. -/
def addTable (levels : Nat) (built : String × Tables) (table : String × Value) :
    Except Fault (String × Tables) := do
  let part ← sectionOf levels table.1 table.2
  let text :=
    if part.text.isEmpty && !part.tables.isEmpty then built.1
    else spaced built.1 ++ "[" ++ table.1 ++ "]\n" ++ part.text
  let tables := part.tables.foldl
    (fun tables (inner, value) => Tables.add (table.1 ++ "." ++ inner) value tables) built.2
  pure (text, tables)

/-- A document with some tables and all that is inside them, level by level. -/
def addLevels (depth : Nat) : Nat → String → Tables → Except Fault String
  | 0, text, _ => pure text
  | _ + 1, text, [] => pure text
  | levels + 1, text, tables => do
    let (text, inner) ← tables.foldlM (addTable depth) (text, [])
    addLevels depth levels text inner

def write (value : Value) : Except Fault String := do
  let levels := depth value
  let part ← sectionOf levels "" value
  addLevels levels levels part.text part.tables

end Provenance.Toml
