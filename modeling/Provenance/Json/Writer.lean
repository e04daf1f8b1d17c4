import Provenance.Failure.Basic

/-!
Contract: values written as JSON.

Owns:
- `Style`, the choice between one line and indented lines, and between raw and
  escaped characters beyond ASCII;
- `Draft`, a text as far as it could be written;
- `draft` and `write`, the JSON text of a value.

Does **not** own: reading JSON, and where the text goes.

## Why drafts

A value without a JSON form stops the writing in the middle.  A file that is
written while the value is walked then holds the beginning, so the writer keeps
what came before the fault.
-/

set_option autoImplicit false

namespace Provenance.Json

open Data (Scalar Value)
open Failure (Fault)

/-- A text as far as it could be written, and what stopped it. -/
structure Draft where
  text : List Char
  fault : Option Fault
  deriving Repr

namespace Draft

def done (text : List Char) : Draft := ⟨text, none⟩

def stopped (fault : Fault) : Draft := ⟨[], some fault⟩

/-- One draft after another; nothing follows a stopped one. -/
def andThen (first second : Draft) : Draft :=
  match first.fault with
  | some _ => first
  | none => ⟨first.text ++ second.text, second.fault⟩

/-- The whole text, or what stopped it. -/
def result (draft : Draft) : Except Fault String :=
  match draft.fault with
  | some fault => .error fault
  | none => .ok (String.ofList draft.text)

end Draft

/-- How JSON is laid out. -/
structure Style where
  asciiOnly : Bool
  /-- How far each level is indented; without it all is one line. -/
  indent : Option Nat
  deriving DecidableEq, Repr

namespace Style

/-- One line, characters as they are. -/
def line : Style := ⟨false, none⟩

def asciiLine : Style := ⟨true, none⟩

/-- Two blanks a level, characters as they are. -/
def pretty : Style := ⟨false, some 2⟩

/-- Two blanks a level, ASCII only. -/
def asciiPretty : Style := ⟨true, some 2⟩

/-- What stands before the first and after the last part at a depth. -/
def lineBreak (style : Style) (depth : Nat) : List Char :=
  match style.indent with
  | some width => '\n' :: List.replicate (width * depth) ' '
  | none => []

def separator (style : Style) (depth : Nat) : List Char :=
  match style.indent with
  | some _ => ',' :: style.lineBreak depth
  | none => [',', ' ']

end Style

def unitEscape (unit : Nat) : List Char :=
  '\\' :: 'u' :: Text.hexadecimal 4 unit

def escape (asciiOnly : Bool) (character : Char) : List Char :=
  if character = '"' then ['\\', '"']
  else if character = '\\' then ['\\', '\\']
  else if character = '\n' then ['\\', 'n']
  else if character = '\r' then ['\\', 'r']
  else if character = '\t' then ['\\', 't']
  else if character.toNat = 8 then ['\\', 'b']
  else if character.toNat = 12 then ['\\', 'f']
  else if character.toNat < 32 then unitEscape character.toNat
  else if asciiOnly && 126 < character.toNat then
    if character.toNat < 0x10000 then
      unitEscape character.toNat
    else
      let offset := character.toNat - 0x10000
      unitEscape (0xd800 + offset / 0x400) ++ unitEscape (0xdc00 + offset % 0x400)
  else [character]

def writeText (asciiOnly : Bool) (text : String) : List Char :=
  '"' :: text.toList.flatMap (escape asciiOnly) ++ ['"']

/-- A floating-point number; the three that JSON lacks have names of their own. -/
def floatText (value : Number.Binary64) : String :=
  match value with
  | .nan => "NaN"
  | .infinite true => "-Infinity"
  | .infinite false => "Infinity"
  | finite => finite.text

section Writing

variable [Text.DigitLimit]

/-- The text of a whole number, which may not be too long. -/
def wholeText (value : Int) : Except Fault String :=
  if Text.isTooLong value then .error .tooLongToWrite else .ok (toString value)

/-- A draft of a text, or of nothing. -/
def Draft.ofResult : Except Fault String → Draft
  | .ok text => .done text.toList
  | .error fault => .stopped fault

/-- A scalar; moments and octets have no JSON form. -/
def writeScalar (style : Style) : Scalar → Draft
  | .null => .done "null".toList
  | .bool true => .done "true".toList
  | .bool false => .done "false".toList
  | .int value => .ofResult (wholeText value)
  | .float value => .done (floatText value).toList
  | .text value => .done (writeText style.asciiOnly value)
  | other => .stopped (.notWritable other.kind)

/-- The word for a kind in what is said of a key; on one line its origin is named too. -/
def Style.kindName (style : Style) (kind : Data.Kind) : String :=
  if style.indent.isNone then kind.qualifiedName else kind.name

/-- The text of a key, which JSON requires to be a text. -/
def keyText (style : Style) : Scalar → Except Fault String
  | .null => .ok "null"
  | .bool true => .ok "true"
  | .bool false => .ok "false"
  | .int value => wholeText value
  | .float value => .ok (floatText value)
  | .text value => .ok value
  | other => .error (.unwritableKey (style.kindName other.kind))

/-- A key with what separates it from the part before and from its value. -/
def writeKey (style : Style) (depth : Nat) (isFirst : Bool) (key : Scalar) : Draft :=
  match keyText style key with
  | .error fault => .stopped fault
  | .ok text =>
    .done ((if isFirst then [] else style.separator depth) ++
      writeText style.asciiOnly text ++ [':', ' '])

/-- Parts between brackets, each part on a line of its own where the style asks for it. -/
def enclose (style : Style) (depth : Nat) (opening closing : Char) (parts : Draft) : Draft :=
  ((Draft.done (opening :: style.lineBreak (depth + 1))).andThen parts).andThen
    (.done (style.lineBreak depth ++ [closing]))

mutual

/-- The JSON text of a value at a depth. -/
def draftAt (style : Style) (depth : Nat) : Value → Draft
  | .scalar value => writeScalar style value
  | .list [] => .done ['[', ']']
  | .list (item :: rest) =>
    enclose style depth '[' ']'
      ((draftAt style (depth + 1) item).andThen (draftItems style (depth + 1) rest))
  | .pairs [] => .done ['[', ']']
  | .pairs ((first, second) :: rest) =>
    enclose style depth '[' ']'
      ((enclose style (depth + 1) '[' ']'
        ((draftAt style (depth + 2) first).andThen
          ((Draft.done (style.separator (depth + 2))).andThen (draftAt style (depth + 2) second)))
        ).andThen (draftPairs style (depth + 1) rest))
  | .dict [] => .done ['\x7b', '\x7d']
  | .dict ((key, value) :: rest) =>
    enclose style depth '\x7b' '\x7d'
      (((writeKey style (depth + 1) true key).andThen (draftAt style (depth + 1) value)).andThen
        (draftEntries style (depth + 1) rest))
  | .set _ => .stopped (.notWritable .set)
  | .link .. => .stopped .circular

def draftItems (style : Style) (depth : Nat) : List Value → Draft
  | [] => .done []
  | item :: rest =>
    ((Draft.done (style.separator depth)).andThen (draftAt style depth item)).andThen
      (draftItems style depth rest)

def draftPairs (style : Style) (depth : Nat) : List (Value × Value) → Draft
  | [] => .done []
  | (first, second) :: rest =>
    ((Draft.done (style.separator depth)).andThen
      (enclose style depth '[' ']'
        ((draftAt style (depth + 1) first).andThen
          ((Draft.done (style.separator (depth + 1))).andThen
            (draftAt style (depth + 1) second))))).andThen
      (draftPairs style depth rest)

def draftEntries (style : Style) (depth : Nat) : List (Scalar × Value) → Draft
  | [] => .done []
  | (key, value) :: rest =>
    ((writeKey style depth false key).andThen (draftAt style depth value)).andThen
      (draftEntries style depth rest)

end

/-- The JSON text of a value as far as it can be written. -/
def draft (style : Style) (value : Value) : Draft :=
  draftAt style 0 value

/-- The JSON text of a value, or why it has none. -/
def write (style : Style) (value : Value) : Except Fault String :=
  (draft style value).result

end Writing

end Provenance.Json
