import Provenance.Data.Moment
import Provenance.Json.Reader

/-!
Contract: TOML documents read into settings.

Owns:
- the scalars, keys, arrays and tables of the language;
- `Document`, the tables so far with the names that may not be reopened;
- `read`, a whole document.

Does **not** own: octets, which must be UTF-8, and writing TOML.

## What may not be reopened

A table that has a header of its own, or whose keys were written with dots, has
no second header.  An array or a table that stands on one line as a value is
frozen with all below it.  A new item of an array of tables frees the names below
the array.
-/

set_option autoImplicit false

namespace Provenance.Toml

open Data (Scalar Value Entries Date Clock)
open Failure (Fault)

/-- What is wrong with a document, and how many characters were left at the place. -/
structure Complaint where
  reason : String
  left : Nat
  deriving DecidableEq, Repr

def complain {α : Type} (reason : String) (text : List Char) : Except Complaint α :=
  .error ⟨reason, text.length⟩

def isBlank (character : Char) : Bool :=
  character = ' ' || character = '\t'

/-- A blank, a tab or a line feed. -/
def isBlankOrLine (character : Char) : Bool :=
  isBlank character || character = '\n'

def isControl (character : Char) : Bool :=
  (character.toNat < 32 && character ≠ '\t') || character.toNat = 127

def skipBlanks (text : List Char) : List Char :=
  text.dropWhile isBlank

/-- The text after a comment at its front, which reaches to the end of the line. -/
def skipComment : List Char → Except Complaint (List Char)
  | '#' :: rest =>
    match (rest.takeWhile (· ≠ '\n')).find? isControl with
    | some _ => complain "Found invalid character" (rest.dropWhile fun c => !isControl c)
    | none => .ok (rest.dropWhile (· ≠ '\n'))
  | text => .ok text

/-- The text after blanks, line ends and comments. -/
def skipGap : Nat → List Char → Except Complaint (List Char)
  | 0, text => .ok text
  | fuel + 1, text => do
    let rest ← skipComment (text.dropWhile isBlankOrLine)
    if rest.length = text.length then pure text else skipGap fuel rest

/-! ## Texts -/

def hexValue? (digits : List Char) : Option Nat :=
  (digits.mapM Json.hexDigit?).map (Text.positional 16)

def isCharacter (code : Nat) : Bool :=
  code ≤ 0xd7ff || (0xe000 ≤ code && code ≤ 0x10ffff)

def readHex (count : Nat) (text : List Char) : Except Complaint (Char × List Char) :=
  match hexValue? (text.take count) with
  | some code =>
    if (text.take count).length < count then complain "Invalid hex value" text
    else if isCharacter code then .ok (Char.ofNat code, text.drop count)
    else complain "Escaped character is not a Unicode scalar value" (text.drop count)
  | none => complain "Invalid hex value" text

def simpleEscape? (letter : Char) : Option Char :=
  match letter with
  | 'b' => some (Char.ofNat 8)
  | 't' => some '\t'
  | 'n' => some '\n'
  | 'f' => some (Char.ofNat 12)
  | 'r' => some '\r'
  | '"' => some '"'
  | '\\' => some '\\'
  | _ => none

/-- An escape after its backslash.  In a long text a backslash at the end of a line swallows the
white space that follows. -/
def readEscape (isLong : Bool) (text : List Char) : Except Complaint (List Char × List Char) :=
  match text with
  | [] => complain "Unescaped '\\' in a string" text
  | letter :: rest =>
    if isLong && isBlankOrLine letter then
      let line := if letter = '\n' then text else skipBlanks rest
      match line with
      | [] => .ok ([], [])
      | '\n' :: after => .ok ([], after.dropWhile isBlankOrLine)
      | _ => complain "Unescaped '\\' in a string" line
    else if letter = 'u' then do
      let (character, rest) ← readHex 4 rest
      pure ([character], rest)
    else if letter = 'U' then do
      let (character, rest) ← readHex 8 rest
      pure ([character], rest)
    else
      match simpleEscape? letter with
      | some character => .ok ([character], rest)
      | none => complain "Unescaped '\\' in a string" rest

/-- The characters of a text in double quotes, after the opening ones. -/
def readBasic (isLong : Bool) : Nat → List Char → Except Complaint (List Char × List Char)
  | 0, text => complain "Unterminated string" text
  | fuel + 1, text =>
    match text with
    | [] => complain "Unterminated string" text
    | '\\' :: rest => do
      let (escaped, rest) ← readEscape isLong rest
      let (characters, rest) ← readBasic isLong fuel rest
      pure (escaped ++ characters, rest)
    | '"' :: rest =>
      if isLong then
        match rest with
        | '"' :: '"' :: after => .ok ([], after)
        | _ => do
          let (characters, rest) ← readBasic isLong fuel rest
          pure ('"' :: characters, rest)
      else
        .ok ([], rest)
    | character :: rest =>
      if isControl character && !(isLong && character = '\n') then
        complain "Illegal character" text
      else do
        let (characters, rest) ← readBasic isLong fuel rest
        pure (character :: characters, rest)

/-- The characters of a text in single quotes, after the opening ones. -/
def readLiteral (isLong : Bool) (text : List Char) : Except Complaint (List Char × List Char) :=
  let mark := if isLong then ['\'', '\'', '\''] else ['\'']
  match Text.cutFirst? mark text with
  | none => complain "Expected a closing mark" []
  | some (characters, rest) =>
    if characters.any fun c => isControl c && !(isLong && c = '\n') then
      complain "Found invalid character" text
    else
      .ok (characters, rest)

/-- A long text after its closing marks: up to two further marks belong to it. -/
def addMarks (mark : Char) (characters rest : List Char) : List Char × List Char :=
  match rest with
  | first :: second :: after =>
    if first = mark then
      if second = mark then (characters ++ [mark, mark], after)
      else (characters ++ [mark], second :: after)
    else (characters, rest)
  | [first] => if first = mark then (characters ++ [mark], []) else (characters, rest)
  | [] => (characters, rest)

/-- A long text without the line end directly after its opening marks. -/
def dropFirstLine : List Char → List Char
  | '\n' :: rest => rest
  | text => text

def readText (text : List Char) : Except Complaint (List Char × List Char) :=
  match text with
  | '"' :: '"' :: '"' :: rest => do
    let (characters, rest) ← readBasic true (rest.length + 1) (dropFirstLine rest)
    pure (addMarks '"' characters rest)
  | '"' :: rest => readBasic false (rest.length + 1) rest
  | '\'' :: '\'' :: '\'' :: rest => do
    let (characters, rest) ← readLiteral true (dropFirstLine rest)
    pure (addMarks '\'' characters rest)
  | '\'' :: rest => readLiteral false rest
  | _ => complain "Invalid value" text

/-! ## Keys -/

def isBareKey (character : Char) : Bool :=
  character.isAlphanum || character = '-' || character = '_'

def readKeyPart (text : List Char) : Except Complaint (String × List Char) :=
  match text with
  | '"' :: rest => do
    let (characters, rest) ← readBasic false (rest.length + 1) rest
    pure (String.ofList characters, rest)
  | '\'' :: rest => do
    let (characters, rest) ← readLiteral false rest
    pure (String.ofList characters, rest)
  | _ =>
    match text.takeWhile isBareKey with
    | [] => complain "Invalid initial character for a key part" text
    | characters => .ok (String.ofList characters, text.dropWhile isBareKey)

/-- The parts of a key, between dots. -/
def readKey : Nat → List Char → Except Complaint (List String × List Char)
  | 0, text => complain "Invalid initial character for a key part" text
  | fuel + 1, text => do
    let (part, rest) ← readKeyPart text
    match skipBlanks rest with
    | '.' :: rest =>
      let (parts, rest) ← readKey fuel (skipBlanks rest)
      pure (part :: parts, rest)
    | rest => pure ([part], rest)

/-! ## Numbers and moments -/

/-- Digits in which single underscores may stand between digits. -/
def takeGrouped (isDigit : Char → Bool) : List Char → List Char × List Char
  | '_' :: digit :: rest =>
    if isDigit digit then
      let (digits, rest) := takeGrouped isDigit rest
      (digit :: digits, rest)
    else ([], '_' :: digit :: rest)
  | digit :: rest =>
    if isDigit digit then
      let (digits, rest) := takeGrouped isDigit rest
      (digit :: digits, rest)
    else ([], digit :: rest)
  | [] => ([], [])

def takeNumber? (isDigit : Char → Bool) (text : List Char) : Option (List Char × List Char) :=
  match text with
  | digit :: _ => if isDigit digit then some (takeGrouped isDigit text) else none
  | [] => none

/-- The digits of the bases that are named in front of a number. -/
def basedNumber? (text : List Char) : Option (Int × List Char) :=
  let number (base : Nat) (isDigit : Char → Bool) (rest : List Char) : Option (Int × List Char) :=
    (takeNumber? isDigit rest).bind fun (digits, rest) =>
      (digits.mapM Json.hexDigit?).map fun values => ((Text.positional base values : Nat), rest)
  match text with
  | '0' :: 'x' :: rest => number 16 (fun c => (Json.hexDigit? c).isSome) rest
  | '0' :: 'o' :: rest => number 8 (fun c => '0' ≤ c && c ≤ '7') rest
  | '0' :: 'b' :: rest => number 2 (fun c => c = '0' || c = '1') rest
  | _ => none

/-- The sign of a number and the text after it. -/
def takeSign : List Char → Bool × List Char
  | '-' :: rest => (true, rest)
  | '+' :: rest => (false, rest)
  | text => (false, text)

def takeFraction (text : List Char) : Option (List Char) × List Char :=
  match text with
  | '.' :: rest =>
    match takeNumber? Json.isDigit rest with
    | some (digits, rest) => (some digits, rest)
    | none => (none, text)
  | _ => (none, text)

/-- An exponent: its sign and digits. -/
def takeExponent (text : List Char) : Option Int × List Char :=
  match text with
  | mark :: rest =>
    if mark = 'e' || mark = 'E' then
      let (negative, rest) := takeSign rest
      match takeNumber? Json.isDigit rest with
      | some (digits, rest) =>
        let power : Int := Json.digitsValue digits
        (some (if negative then -power else power), rest)
      | none => (none, text)
    else (none, text)
  | [] => (none, text)

/-- A decimal number; a point or an exponent makes it a floating-point number. -/
def decimalNumber? (text : List Char) : Option (Except Complaint (Scalar × List Char)) := do
  let (negative, unsigned) := takeSign text
  let (whole, rest) ←
    match unsigned with
    | '0' :: rest => some (['0'], rest)
    | _ => takeNumber? Json.isDigit unsigned
  let (fraction, rest) := takeFraction rest
  let (exponent, rest) := takeExponent rest
  if fraction.isNone && exponent.isNone then
    let magnitude : Int := Json.digitsValue whole
    if Text.hasTooMany whole.length then some (complain "Number too long" text)
    else some (.ok (.int (if negative then -magnitude else magnitude), rest))
  else
    let digits := whole ++ fraction.getD []
    let scale := exponent.getD 0 - (fraction.getD []).length
    some (.ok (.float (.ofDecimal negative (Json.digitsValue digits) scale), rest))

/-- The words for infinity and for what is no number. -/
def wordNumber? (text : List Char) : Option (Scalar × List Char) :=
  let (negative, unsigned) := takeSign text
  match unsigned with
  | 'i' :: 'n' :: 'f' :: rest => some (.float (.infinite negative), rest)
  | 'n' :: 'a' :: 'n' :: rest => some (.float .nan, rest)
  | _ => none

def twoDigits? (text : List Char) : Option (Nat × List Char) :=
  match text with
  | tens :: ones :: rest =>
    if Json.isDigit tens && Json.isDigit ones then some (Json.digitsValue [tens, ones], rest)
    else none
  | _ => none

def expect? (mark : Char) : List Char → Option (List Char)
  | head :: rest => if head = mark then some rest else none
  | [] => none

/-- The microseconds after a point; digits beyond the sixth are dropped. -/
def takeMicroseconds (text : List Char) : Nat × List Char :=
  match text with
  | '.' :: rest =>
    match rest.takeWhile Json.isDigit with
    | [] => (0, text)
    | digits =>
      let six := (digits ++ List.replicate 6 '0').take 6
      (Json.digitsValue six, rest.dropWhile Json.isDigit)
  | _ => (0, text)

def clock? (text : List Char) : Option (Clock × List Char) := do
  let (hour, rest) ← twoDigits? text
  let rest ← expect? ':' rest
  let (minute, rest) ← twoDigits? rest
  let rest ← expect? ':' rest
  let (second, rest) ← twoDigits? rest
  let (microsecond, rest) := takeMicroseconds rest
  let clock : Clock := ⟨hour, minute, second, microsecond, none⟩
  if clock.isValid then some (clock, rest) else none

/-- A zone: `Z`, or a sign with hours and minutes. -/
def zone? (text : List Char) : Option (Int × List Char) := do
  match text with
  | 'Z' :: rest => some (0, rest)
  | 'z' :: rest => some (0, rest)
  | sign :: rest =>
    if sign = '-' || sign = '+' then
      let (hours, rest) ← twoDigits? rest
      let rest ← expect? ':' rest
      let (minutes, rest) ← twoDigits? rest
      if hours < 24 ∧ minutes < 60 then
        let distance : Int := hours * 60 + minutes
        some (if sign = '-' then -distance else distance, rest)
      else none
    else none
  | [] => none

/-- A date whose month and day are within their ranges. -/
def date? (text : List Char) : Option (Date × List Char) := do
  let (century, rest) ← twoDigits? text
  let (year, rest) ← twoDigits? rest
  let rest ← expect? '-' rest
  let (month, rest) ← twoDigits? rest
  let rest ← expect? '-' rest
  let (day, rest) ← twoDigits? rest
  if 1 ≤ month ∧ month ≤ 12 ∧ 1 ≤ day ∧ day ≤ 31 then
    some (⟨century * 100 + year, month, day⟩, rest)
  else none

/-- A date, perhaps with a time of day and a zone; the day must exist. -/
def moment? (text : List Char) : Option (Except Complaint (Scalar × List Char)) := do
  let (date, rest) ← date? text
  let time : Option (Clock × List Char) :=
    match rest with
    | mark :: after =>
      if mark = 'T' || mark = 't' || mark = ' ' then
        (clock? after).map fun (clock, rest) =>
          match zone? rest with
          | some (zone, rest) => ({ clock with zone := some zone }, rest)
          | none => (clock, rest)
      else none
    | [] => none
  if date.isValid = false then some (complain "Invalid date or datetime" text)
  else
    match time with
    | some (clock, rest) => some (.ok (.datetime date clock, rest))
    | none => some (.ok (.date date, rest))

def readScalar (text : List Char) : Except Complaint (Scalar × List Char) :=
  match text with
  | '"' :: _ => (readText text).map fun (characters, rest) => (.text (String.ofList characters), rest)
  | '\'' :: _ => (readText text).map fun (characters, rest) => (.text (String.ofList characters), rest)
  | 't' :: 'r' :: 'u' :: 'e' :: rest => .ok (.bool true, rest)
  | 'f' :: 'a' :: 'l' :: 's' :: 'e' :: rest => .ok (.bool false, rest)
  | _ =>
    match moment? text with
    | some result => result
    | none =>
      match clock? text with
      | some (clock, rest) => .ok (.time clock, rest)
      | none =>
        match basedNumber? text with
        | some (number, rest) => .ok (.int number, rest)
        | none =>
          match decimalNumber? text with
          | some result => result
          | none =>
            match wordNumber? text with
            | some result => .ok result
            | none => complain "Invalid value" text

/-! ## Tables -/

/-- The path of a table or value: its keys from the top. -/
abbrev KeyPath := List String

/-- Changes the table at a path, making the tables on the way.

Of an array of tables the last item is meant.  A path through anything else is
refused. -/
def changeTable (entersArrays : Bool) (change : Entries → Option Entries) :
    KeyPath → Entries → Option Entries
  | [], entries => change entries
  | key :: rest, entries =>
    match Entries.get? entries key with
    | none =>
      (changeTable entersArrays change rest []).map fun inner =>
        Entries.insert (.text key) (.dict inner) entries
    | some (.dict inner) =>
      (changeTable entersArrays change rest inner).map fun inner =>
        Entries.insert (.text key) (.dict inner) entries
    | some (.list items) =>
      if entersArrays then
        match items.getLast? with
        | some (.dict inner) =>
          (changeTable entersArrays change rest inner).map fun inner =>
            Entries.insert (.text key) (.list (items.dropLast ++ [.dict inner])) entries
        | _ => none
      else none
    | some _ => none

def addEntry (key : String) (value : Value) (entries : Entries) : Option Entries :=
  if entries.hasKey (.text key) then none else some (Entries.insert (.text key) value entries)

/-- Adds an item to an array of tables, which is made if it is not there. -/
def addItem (key : String) (entries : Entries) : Option Entries :=
  match Entries.get? entries key with
  | none => some (Entries.insert (.text key) (.list [.dict []]) entries)
  | some (.list items) => some (Entries.insert (.text key) (.list (items ++ [.dict []])) entries)
  | some _ => none

/-- Whether a value is an array or a table. -/
def hasParts : Value → Bool
  | .scalar _ => false
  | _ => true

/-- Whether a path lies at or below a frozen one. -/
def isFrozen (frozen : List KeyPath) (path : KeyPath) : Bool :=
  !path.isEmpty && frozen.any fun other => other.isPrefixOf path

/-- The last key of a path and the path before it. -/
def splitLast (path : KeyPath) : KeyPath × String :=
  (path.dropLast, path.getLast?.getD "")

mutual

def readValue : Nat → List Char → Except Complaint (Value × List Char)
  | 0, text => complain "Invalid value" text
  | fuel + 1, text =>
    match text with
    | '[' :: rest => do
      let rest ← skipGap (rest.length + 1) rest
      match rest with
      | ']' :: rest => pure (.list [], rest)
      | _ =>
        let (items, rest) ← readItems fuel rest
        pure (.list items, rest)
    | '\x7b' :: rest =>
      match skipBlanks rest with
      | '\x7d' :: rest => .ok (.dict [], rest)
      | rest => do
        let (entries, rest) ← readPairs fuel [] [] rest
        pure (.dict entries, rest)
    | _ => (readScalar text).map fun (value, rest) => (.scalar value, rest)

/-- The items of an array up to its closing bracket. -/
def readItems : Nat → List Char → Except Complaint (List Value × List Char)
  | 0, text => complain "Unclosed array" text
  | fuel + 1, text => do
    let (item, rest) ← readValue fuel text
    let rest ← skipGap (rest.length + 1) rest
    match rest with
    | ']' :: rest => pure ([item], rest)
    | ',' :: rest =>
      let rest ← skipGap (rest.length + 1) rest
      match rest with
      | ']' :: rest => pure ([item], rest)
      | _ =>
        let (items, rest) ← readItems fuel rest
        pure (item :: items, rest)
    | _ => complain "Unclosed array" rest

/-- The pairs of a table on one line up to its closing brace. -/
def readPairs : Nat → List KeyPath → Entries → List Char → Except Complaint (Entries × List Char)
  | 0, _, _, text => complain "Unclosed inline table" text
  | fuel + 1, frozen, entries, text => do
    let (path, rest) ← readKey (text.length + 1) text
    let rest ←
      match rest with
      | '=' :: rest => pure (skipBlanks rest)
      | _ => complain "Expected '=' after a key in a key/value pair" rest
    let (value, rest) ← readValue fuel rest
    let (parent, key) := splitLast path
    if isFrozen frozen path then
      complain "Cannot mutate immutable namespace" rest
    else
      match changeTable false (addEntry key value) parent entries with
      | none => complain "Cannot overwrite a value" rest
      | some entries =>
        match skipBlanks rest with
        | '\x7d' :: rest => pure (entries, rest)
        | ',' :: rest =>
          readPairs fuel (if hasParts value then path :: frozen else frozen) entries
            (skipBlanks rest)
        | rest => complain "Unclosed inline table" rest

end

/-! ## Documents -/

/-- The tables so far and the names that may not be reopened. -/
structure Document where
  entries : Entries := []
  header : KeyPath := []
  /-- Tables that have a header, or keys with dots. -/
  declared : List KeyPath := []
  /-- Tables that count as declared from the next header on. -/
  pending : List KeyPath := []
  frozen : List KeyPath := []

namespace Document

def atHeader (document : Document) : Document :=
  { document with declared := document.pending ++ document.declared, pending := [] }

def openTable (document : Document) (path : KeyPath) : Except String Document :=
  let document := document.atHeader
  if document.declared.contains path || isFrozen document.frozen path then
    .error "Cannot declare a table twice"
  else
    match changeTable true some path document.entries with
    | none => .error "Cannot overwrite a value"
    | some entries =>
      .ok { document with entries := entries, header := path, declared := path :: document.declared }

/-- The header of an item of an array of tables. -/
def openItem (document : Document) (path : KeyPath) : Except String Document :=
  let document := document.atHeader
  if isFrozen document.frozen path then
    .error "Cannot mutate immutable namespace"
  else
    let (parent, key) := splitLast path
    let free (paths : List KeyPath) : List KeyPath := paths.filter fun other => !path.isPrefixOf other
    match changeTable true (addItem key) parent document.entries with
    | none => .error "Cannot overwrite a value"
    | some entries =>
      .ok { document with
        entries := entries
        header := path
        declared := path :: free document.declared
        frozen := free document.frozen }

def addPair (document : Document) (path : KeyPath) (value : Value) : Except String Document :=
  let (parent, key) := splitLast path
  let fullParent := document.header ++ parent
  let inner := (List.range parent.length).map fun count =>
    document.header ++ path.take (count + 1)
  if inner.any fun path => document.declared.contains path then
    .error "Cannot redefine namespace"
  else if isFrozen document.frozen fullParent then
    .error "Cannot mutate immutable namespace"
  else
    match changeTable true (addEntry key value) fullParent document.entries with
    | none => .error "Cannot overwrite a value"
    | some entries =>
      .ok { document with
        entries := entries
        pending := inner ++ document.pending
        frozen :=
          if hasParts value then (document.header ++ path) :: document.frozen else document.frozen }

end Document

def placed {α : Type} (rest : List Char) (result : Except String α) : Except Complaint α :=
  result.mapError fun reason => ⟨reason, rest.length⟩

/-- One statement: a pair, a header, or the header of an item. -/
def readStatement (document : Document) (text : List Char) : Except Complaint (Document × List Char) :=
  match text with
  | '[' :: '[' :: rest => do
    let (path, rest) ← readKey (rest.length + 1) (skipBlanks rest)
    let document ← placed rest (document.openItem path)
    match rest with
    | ']' :: ']' :: rest => pure (document, rest)
    | _ => complain "Expected ']]' at the end of an array declaration" rest
  | '[' :: rest => do
    let (path, rest) ← readKey (rest.length + 1) (skipBlanks rest)
    let document ← placed rest (document.openTable path)
    match rest with
    | ']' :: rest => pure (document, rest)
    | _ => complain "Expected ']' at the end of a table declaration" rest
  | head :: _ =>
    if isBareKey head || head = '"' || head = '\'' then do
      let (path, rest) ← readKey (text.length + 1) text
      let rest ←
        match rest with
        | '=' :: rest => pure (skipBlanks rest)
        | _ => complain "Expected '=' after a key in a key/value pair" rest
      let (value, rest) ← readValue (2 * rest.length + 2) rest
      let document ← placed rest (document.addPair path value)
      pure (document, rest)
    else if head = '#' then .ok (document, text)
    else complain "Invalid statement" text
  | [] => .ok (document, [])

/-- The statements of a document, one a line. -/
def readStatements : Nat → Document → List Char → Except Complaint Document
  | 0, document, _ => .ok document
  | fuel + 1, document, text =>
    match skipBlanks text with
    | [] => .ok document
    | '\n' :: rest => readStatements fuel document rest
    | text => do
      let (document, rest) ← readStatement document text
      match ← skipComment (skipBlanks rest) with
      | [] => pure document
      | '\n' :: rest => readStatements fuel document rest
      | rest => complain "Expected newline or end of document after a statement" rest

/-- The text with a line feed for every pair of carriage return and line feed. -/
def unifyLineEnds : List Char → List Char
  | '\r' :: '\n' :: rest => '\n' :: unifyLineEnds rest
  | character :: rest => character :: unifyLineEnds rest
  | [] => []

def placeText (text : List Char) (left : Nat) : String :=
  if left = 0 then "end of document"
  else
    let before := text.take (text.length - left)
    "line " ++ toString (before.count '\n' + 1) ++ ", column " ++
      toString ((before.reverse.takeWhile (· ≠ '\n')).length + 1)

def read (document : String) : Except Fault Value :=
  let text := unifyLineEnds document.toList
  match readStatements (text.length + 1) {} text with
  | .ok document => .ok (.dict document.entries)
  | .error complaint =>
    .error (.notToml (complaint.reason ++ " (at " ++ placeText text complaint.left ++ ")"))

end Provenance.Toml
