import Provenance.Failure.Basic

/-!
Contract: JSON texts read into values.

Owns:
- `Complaint`, what can be wrong with a text, with its place;
- `read`, which accepts one JSON value with white space around it.

Does **not** own: octets and byte order marks in front of a text.

## Why places are counted from the end

A scanner knows what is left of its text.  The place of a complaint is therefore
held as the length of the rest, and turned into a line and a column only when a
message is made.

## Why there is fuel

Every call on a value, a further item or a further entry uses up at least one
character or one unit of fuel.  `read` gives two units a character, so the fuel
never runs out before the text does.
-/

set_option autoImplicit false

namespace Provenance.Json

open Data (Scalar Value Entries)
open Failure (Fault)

/-- What is wrong with a JSON text. -/
inductive Complaint where
  | expectingValue
  | expectingName
  | expectingColon
  | expectingComma
  | extraData
  | unterminatedText
  | controlCharacter
  | badEscape
  | badUnicodeEscape
  | byteOrderMark
  deriving DecidableEq, Repr

def Complaint.words : Complaint → String
  | .expectingValue => "Expecting value"
  | .expectingName => "Expecting property name enclosed in double quotes"
  | .expectingColon => "Expecting ':' delimiter"
  | .expectingComma => "Expecting ',' delimiter"
  | .extraData => "Extra data"
  | .unterminatedText => "Unterminated string starting at"
  | .controlCharacter => "Invalid control character at"
  | .badEscape => "Invalid \\escape"
  | .badUnicodeEscape => "Invalid \\uXXXX escape"
  | .byteOrderMark => "Unexpected UTF-8 BOM (decode using utf-8-sig)"

/-- Why a text could not be read. -/
inductive ReadError where
  /-- The complaint, and how many characters were left at its place. -/
  | complaint (reason : Complaint) (left : Nat)
  /-- A whole number of more digits than can be read. -/
  | tooManyDigits (digits : Nat)
  deriving DecidableEq, Repr

/-- The place of a complaint in words: line, column and character. -/
def placeText (text : List Char) (position : Nat) : String :=
  let before := text.take position
  let line := before.count '\n' + 1
  let column := (before.reverse.takeWhile (· ≠ '\n')).length + 1
  "line " ++ toString line ++ " column " ++ toString column ++ " (char " ++ toString position ++ ")"

/-- The fault that a reading error of `text` amounts to. -/
def ReadError.fault (text : List Char) : ReadError → Fault
  | .complaint reason left =>
    .notJson (reason.words ++ ": " ++ placeText text (text.length - left))
  | .tooManyDigits digits => .tooManyDigits digits

def isSpace (character : Char) : Bool :=
  character = ' ' || character = '\t' || character = '\n' || character = '\r'

/-- The text from its first character that is not white space. -/
def skipSpace (text : List Char) : List Char :=
  text.dropWhile isSpace

def hexDigit? (character : Char) : Option Nat :=
  let code := character.toNat
  if 48 ≤ code ∧ code ≤ 57 then some (code - 48)
  else if 97 ≤ code ∧ code ≤ 102 then some (code - 87)
  else if 65 ≤ code ∧ code ≤ 70 then some (code - 55)
  else none

def hexUnit? (first second third fourth : Char) : Option Nat := do
  let first ← hexDigit? first
  let second ← hexDigit? second
  let third ← hexDigit? third
  let fourth ← hexDigit? fourth
  pure (((first * 16 + second) * 16 + third) * 16 + fourth)

/-- Whether a sixteen-bit unit is the first of a pair. -/
def isHighUnit (unit : Nat) : Bool := 0xd800 ≤ unit && unit < 0xdc00

/-- Whether a sixteen-bit unit is the second of a pair. -/
def isLowUnit (unit : Nat) : Bool := 0xdc00 ≤ unit && unit < 0xe000

/-- The character of one unit; half of a pair is shown as a replacement character. -/
def unitCharacter (unit : Nat) : Char :=
  if isHighUnit unit || isLowUnit unit then Char.ofNat 0xfffd else Char.ofNat unit

def pairCharacter (high low : Nat) : Char :=
  Char.ofNat (0x10000 + (high - 0xd800) * 0x400 + (low - 0xdc00))

def simpleEscape? (letter : Char) : Option Char :=
  if letter = '"' || letter = '\\' || letter = '/' then some letter
  else if letter = 'b' then some (Char.ofNat 8)
  else if letter = 'f' then some (Char.ofNat 12)
  else if letter = 'n' then some '\n'
  else if letter = 'r' then some '\r'
  else if letter = 't' then some '\t'
  else none

/-- One more character in front of what has been read. -/
def consRead (character : Char) :
    Except ReadError (List Char × List Char) → Except ReadError (List Char × List Char)
  | .ok (characters, rest) => .ok (character :: characters, rest)
  | .error error => .error error

/-- The characters of a text up to its closing mark, and what follows the mark.

`opened` is how many characters were left at the opening mark.  Four digits of an
escape must be followed by something, or the escape itself is at fault. -/
def readText (opened : Nat) : List Char → Except ReadError (List Char × List Char)
  | [] => .error (.complaint .unterminatedText opened)
  | '"' :: rest => .ok ([], rest)
  | ['\\'] => .error (.complaint .unterminatedText opened)
  | '\\' :: 'u' :: first :: second :: third :: fourth :: '\\' :: 'u' :: fifth :: sixth ::
      seventh :: eighth :: next :: rest =>
    match hexUnit? first second third fourth with
    | none => .error (.complaint .badUnicodeEscape (rest.length + 12))
    | some unit =>
      if isHighUnit unit then
        match hexUnit? fifth sixth seventh eighth with
        | none => .error (.complaint .badUnicodeEscape (rest.length + 6))
        | some second =>
          if isLowUnit second then
            consRead (pairCharacter unit second) (readText opened (next :: rest))
          else
            consRead (unitCharacter unit)
              (readText opened
                ('\\' :: 'u' :: fifth :: sixth :: seventh :: eighth :: next :: rest))
      else
        consRead (unitCharacter unit)
          (readText opened ('\\' :: 'u' :: fifth :: sixth :: seventh :: eighth :: next :: rest))
  | '\\' :: 'u' :: first :: second :: third :: fourth :: next :: rest =>
    match hexUnit? first second third fourth with
    | none => .error (.complaint .badUnicodeEscape (rest.length + 6))
    | some unit => consRead (unitCharacter unit) (readText opened (next :: rest))
  | '\\' :: 'u' :: rest => .error (.complaint .badUnicodeEscape (rest.length + 1))
  | '\\' :: letter :: rest =>
    match simpleEscape? letter with
    | some character => consRead character (readText opened rest)
    | none => .error (.complaint .badEscape (rest.length + 2))
  | character :: rest =>
    if character.toNat < 32 then
      .error (.complaint .controlCharacter (rest.length + 1))
    else
      consRead character (readText opened rest)

def isDigit (character : Char) : Bool :=
  '0' ≤ character && character ≤ '9'

/-- The whole part of a number: a lone zero, or digits that do not begin with one. -/
def splitWhole? : List Char → Option (List Char × List Char)
  | '0' :: rest => some (['0'], rest)
  | text =>
    match text.takeWhile isDigit with
    | [] => none
    | digits => some (digits, text.dropWhile isDigit)

/-- A point with the digits after it; none if no digit follows. -/
def splitFraction : List Char → List Char × List Char
  | '.' :: rest =>
    match rest.takeWhile isDigit with
    | [] => ([], '.' :: rest)
    | digits => (digits, rest.dropWhile isDigit)
  | text => ([], text)

/-- An exponent's sign and digits; none if no digit follows. -/
def splitExponent (text : List Char) : Option (Bool × List Char) × List Char :=
  match text with
  | mark :: rest =>
    if mark = 'e' || mark = 'E' then
      let (negative, unsigned) :=
        match rest with
        | '-' :: digits => (true, digits)
        | '+' :: digits => (false, digits)
        | _ => (false, rest)
      match unsigned.takeWhile isDigit with
      | [] => (none, text)
      | digits => (some (negative, digits), unsigned.dropWhile isDigit)
    else
      (none, text)
  | [] => (none, text)

def digitsValue (digits : List Char) : Nat :=
  Text.positional 10 (digits.map fun digit => digit.toNat - 48)

section Reading

variable [Text.DigitLimit]

/-- A number after its sign.  A point or an exponent makes it a floating-point number. -/
def readNumber (negative : Bool) (text : List Char) :
    Except ReadError (Option (Value × List Char)) :=
  match splitWhole? text with
  | none => .ok none
  | some (whole, afterWhole) =>
    let (fraction, afterFraction) := splitFraction afterWhole
    let (exponent, rest) := splitExponent afterFraction
    if fraction.isEmpty && exponent.isNone then
      if Text.hasTooMany whole.length then
        .error (.tooManyDigits whole.length)
      else
        let magnitude : Int := digitsValue whole
        .ok (some (.int (if negative then -magnitude else magnitude), rest))
    else
      let power : Int :=
        match exponent with
        | some (true, digits) => -(digitsValue digits : Int)
        | some (false, digits) => digitsValue digits
        | none => 0
      let number := Number.Binary64.ofDecimal negative (digitsValue (whole ++ fraction))
        (power - fraction.length)
      .ok (some (.float number, rest))

/-- The words that are values, with those values. -/
def literals : List (List Char × Value) :=
  [
    ("null".toList, .null), ("true".toList, .bool true), ("false".toList, .bool false),
    ("NaN".toList, .float .nan), ("Infinity".toList, .float (.infinite false)),
    ("-Infinity".toList, .float (.infinite true))
  ]

/-- A word that is a value, at the front of a text. -/
def readLiteral? (text : List Char) : Option (Value × List Char) :=
  literals.findSome? fun (word, value) =>
    if word.isPrefixOf text then some (value, text.drop word.length) else none

/-- A value without parts at the front of a text. -/
def readSimple (text : List Char) : Except ReadError (Value × List Char) :=
  match readLiteral? text with
  | some found => .ok found
  | none =>
    let number :=
      match text with
      | '-' :: rest => readNumber true rest
      | _ => readNumber false text
    match number with
    | .error error => .error error
    | .ok (some found) => .ok found
    | .ok none => .error (.complaint .expectingValue text.length)

/-- A name with the colon after it, at the front of a text. -/
def readName (text : List Char) : Except ReadError (String × List Char) :=
  match text with
  | '"' :: rest => do
    let (name, rest) ← readText text.length rest
    match skipSpace rest with
    | ':' :: rest => pure (String.ofList name, skipSpace rest)
    | other => .error (.complaint .expectingColon other.length)
  | _ => .error (.complaint .expectingName text.length)

mutual

/-- A value at the front of a text, and what follows it. -/
def readValue : Nat → List Char → Except ReadError (Value × List Char)
  | 0, text => .error (.complaint .expectingValue text.length)
  | fuel + 1, text =>
    match text with
    | '"' :: rest => do
      let (characters, rest) ← readText text.length rest
      pure (.text (String.ofList characters), rest)
    | '[' :: rest =>
      match skipSpace rest with
      | ']' :: rest => .ok (.list [], rest)
      | inner => do
        let (items, rest) ← readItems fuel inner
        pure (.list items, rest)
    | '\x7b' :: rest =>
      match skipSpace rest with
      | '\x7d' :: rest => .ok (.dict [], rest)
      | inner => do
        let (entries, rest) ← readEntries fuel inner
        pure (.dict (Entries.ofList entries), rest)
    | _ => readSimple text

/-- The items of a list up to its closing bracket. -/
def readItems : Nat → List Char → Except ReadError (List Value × List Char)
  | 0, text => .error (.complaint .expectingValue text.length)
  | fuel + 1, text => do
    let (item, rest) ← readValue fuel text
    match skipSpace rest with
    | ']' :: rest => pure ([item], rest)
    | ',' :: rest =>
      let (items, rest) ← readItems fuel (skipSpace rest)
      pure (item :: items, rest)
    | other => .error (.complaint .expectingComma other.length)

/-- The entries of a dictionary up to its closing brace. -/
def readEntries : Nat → List Char → Except ReadError (List (Scalar × Value) × List Char)
  | 0, text => .error (.complaint .expectingValue text.length)
  | fuel + 1, text => do
    let (name, rest) ← readName text
    let (value, rest) ← readValue fuel rest
    match skipSpace rest with
    | '\x7d' :: rest => pure ([(.text name, value)], rest)
    | ',' :: rest =>
      let (entries, rest) ← readEntries fuel (skipSpace rest)
      pure ((.text name, value) :: entries, rest)
    | other => .error (.complaint .expectingComma other.length)

end

/-- The one value that a text denotes, or the first complaint about it. -/
def readCharacters (text : List Char) : Except ReadError Value :=
  match text with
  | mark :: _ =>
    if mark.toNat = 0xfeff then .error (.complaint .byteOrderMark text.length)
    else readWhole text
  | [] => readWhole text
where
  /-- A value with white space around it and nothing else. -/
  readWhole (text : List Char) : Except ReadError Value := do
    let (value, rest) ← readValue (2 * text.length + 2) (skipSpace text)
    match skipSpace rest with
    | [] => pure value
    | other => .error (.complaint .extraData other.length)

def read (text : String) : Except Fault Value :=
  match readCharacters text.toList with
  | .ok value => .ok value
  | .error error => .error (error.fault text.toList)

end Reading

end Provenance.Json
