import Provenance.Text.Quoted
import Provenance.World.Basic

/-!
Contract: the layout of a log record's line.

Owns:
- `Directive`, what a `%` in a layout asks for;
- `Layout.accepts`, whether a layout shows any field at all;
- `Layout.line?`, the line of a record.

Does **not** own: which records are shown.

## The shape of a directive

A `%` is followed by the name of a field in parentheses, by flags, by a width and
a `.` with a precision, each of which may be left out but the name, and by the
letter of a conversion.  A doubled `%` stands for itself.
-/

set_option autoImplicit false

namespace Provenance.Journal

open World (LogRecord)

/-- What a `%` in a layout asks for. -/
structure Directive where
  /-- The field that is shown; a `%` that stands for itself needs none. -/
  field : Option String
  flags : List Char
  width : Nat
  precision : Option Nat
  conversion : Char
  deriving DecidableEq, Repr

/-- A part of a layout. -/
inductive Piece where
  | literal (character : Char)
  | directive (directive : Directive)
  deriving DecidableEq, Repr

/-! ## Reading layouts -/

def isFlag (character : Char) : Bool :=
  ['#', '0', '+', ' ', '-'].contains character

/-- The value of decimal digits; none are zero. -/
def digitsValue (digits : List Char) : Nat :=
  digits.foldl (fun number digit => number * 10 + (digit.toNat - '0'.toNat)) 0

def takeField? : List Char → Option (Option String × List Char)
  | '(' :: rest =>
    let name := rest.takeWhile (· ≠ ')')
    match rest.dropWhile (· ≠ ')') with
    | _ :: others => some (some (String.ofList name), others)
    | [] => none
  | other => some (none, other)

def takePrecision : List Char → Option Nat × List Char
  | '.' :: rest => (some (digitsValue (rest.takeWhile Char.isDigit)), rest.dropWhile Char.isDigit)
  | other => (none, other)

/-- The size letter that may stand before a conversion is skipped. -/
def skipSize : List Char → List Char
  | 'h' :: rest => rest
  | 'l' :: rest => rest
  | 'L' :: rest => rest
  | other => other

/-- The directive after a `%` and what follows it. -/
def takeDirective? (text : List Char) : Option (Directive × List Char) := do
  let (field, rest) ← takeField? text
  let flags := rest.takeWhile isFlag
  let rest := rest.dropWhile isFlag
  let width := digitsValue (rest.takeWhile Char.isDigit)
  let (precision, rest) := takePrecision (rest.dropWhile Char.isDigit)
  match skipSize rest with
  | conversion :: rest => some (⟨field, flags, width, precision, conversion⟩, rest)
  | [] => none

/-- The pieces of a layout, which has at most so many. -/
def piecesWithin : Nat → List Char → Option (List Piece)
  | 0, _ => some []
  | _ + 1, [] => some []
  | count + 1, '%' :: rest => do
    let (directive, rest) ← takeDirective? rest
    let pieces ← piecesWithin count rest
    pure (.directive directive :: pieces)
  | count + 1, character :: rest => do
    let pieces ← piecesWithin count rest
    pure (.literal character :: pieces)

/-- The pieces of a layout; a `%` that begins no directive leaves none. -/
def pieces? (layout : String) : Option (List Piece) :=
  piecesWithin layout.length layout.toList

/-! ## Accepting layouts -/

def isConversion (character : Char) : Bool :=
  "diouxefgcrsa%".toList.contains character.toLower

def isNameCharacter (character : Char) : Bool :=
  character.isAlphanum || character = '_' || 127 < character.toNat

/-- A width or precision: digits or a star. -/
def dropCount? : List Char → Option (List Char)
  | '*' :: rest => some rest
  | digit :: rest => if digit.isDigit then some (rest.dropWhile Char.isDigit) else none
  | [] => none

/-- Whether a well-formed directive with a field follows a `%`. -/
def beginsDirective (text : List Char) : Bool :=
  match text with
  | '(' :: rest =>
    let name := rest.takeWhile isNameCharacter
    match rest.dropWhile isNameCharacter with
    | ')' :: rest =>
      let rest := rest.dropWhile isFlag
      let rest := (dropCount? rest).getD rest
      let rest :=
        match rest with
        | '.' :: others => (dropCount? others).getD rest
        | _ => rest
      !name.isEmpty && (rest.head?.map isConversion).getD false
    | _ => false
  | _ => false

def accepts : List Char → Bool
  | [] => false
  | '%' :: rest => beginsDirective rest || accepts rest
  | _ :: rest => accepts rest

/-! ## Showing records -/

/-- The value of a field. -/
inductive FieldValue where
  | text (value : String)
  | number (value : Int)
  deriving DecidableEq, Repr

def fieldValue? (record : LogRecord) : String → Option FieldValue
  | "name" => some (.text record.logger)
  | "levelname" => some (.text (World.Level.name record.level))
  | "levelno" => some (.number record.level)
  | "message" => some (.text record.message)
  | "msg" => some (.text record.message)
  | _ => none

/-- A text in its width: on the right, or on the left if the flags say so. -/
def justified (directive : Directive) (text : String) : String :=
  if directive.flags.contains '-' then Text.padRight directive.width text
  else Text.padLeft directive.width text

/-- A text cut to its precision, in its width. -/
def shownText (directive : Directive) (text : String) : String :=
  justified directive <|
    match directive.precision with
    | some count => String.ofList (text.toList.take count)
    | none => text

/-- A number with at least as many digits as its precision says, in its width. -/
def shownNumber (directive : Directive) (value : Int) : String :=
  let magnitude := toString value.natAbs
  let digits := Text.repeated (directive.precision.getD 0 - magnitude.length) '0' ++ magnitude
  let sign :=
    if value < 0 then "-"
    else if directive.flags.contains '+' then "+"
    else if directive.flags.contains ' ' then " "
    else ""
  if directive.flags.contains '0' && !directive.flags.contains '-' then
    sign ++ Text.repeated (directive.width - sign.length - digits.length) '0' ++ digits
  else
    justified directive (sign ++ digits)

/-- The text of a field's value; a conversion that does not fit the value has none. -/
def shownValue? (directive : Directive) : FieldValue → Option String
  | .text value =>
    match directive.conversion with
    | 's' => some (shownText directive value)
    | 'r' => some (shownText directive (Text.quoted value))
    | _ => none
  | .number value =>
    match directive.conversion with
    | 's' => some (shownText directive (toString value))
    | 'r' => some (shownText directive (toString value))
    | 'a' => some (shownText directive (toString value))
    | 'd' => some (shownNumber directive value)
    | 'i' => some (shownNumber directive value)
    | 'u' => some (shownNumber directive value)
    | _ => none

def pieceText? (record : LogRecord) : Piece → Option String
  | .literal character => some (String.singleton character)
  | .directive directive =>
    match directive.field with
    | none => if directive.conversion = '%' then some "%" else none
    | some field => do
      let value ← fieldValue? record field
      if directive.conversion = '%' then some "%" else shownValue? directive value

/-- The line of a record in a layout; a record that does not fit has none. -/
def line? (layout : String) (record : LogRecord) : Option String := do
  let pieces ← pieces? layout
  let texts ← pieces.mapM (pieceText? record)
  pure (String.join texts)

end Provenance.Journal
