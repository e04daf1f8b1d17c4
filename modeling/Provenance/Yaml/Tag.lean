import Provenance.Text.Digits

/-!
Contract: what a YAML scalar without quotes denotes.

Owns:
- `Tag`, the kinds of scalars;
- `Tag.ofPlain`, the kind that the text of a plain scalar resolves to;
- `Tag.ofText`, the same for a scalar in whatever form.

Does **not** own: the value of a scalar, and which texts may stand without quotes.

## Why one module for both directions

A reader asks what a plain text denotes, and a writer must quote a text exactly
when it would denote something else.  Both ask `Tag.ofPlain`.
-/

set_option autoImplicit false

namespace Provenance.Yaml

/-- The kinds of scalars that plain texts resolve to. -/
inductive Tag where
  | string
  | null
  | bool
  | int
  | float
  | timestamp
  | merge
  | defaultValue
  | reserved
  deriving DecidableEq, Repr

namespace Tag

def isDigit (character : Char) : Bool :=
  '0' ≤ character && character ≤ '9'

def isDigitOrBar (character : Char) : Bool :=
  isDigit character || character = '_'

def afterSign : List Char → List Char
  | '-' :: rest => rest
  | '+' :: rest => rest
  | text => text

/-- Whether a text is not empty and all its characters pass. -/
def isRun (allowed : Char → Bool) (text : List Char) : Bool :=
  !text.isEmpty && text.all allowed

/-- Whether a text is empty or an exponent: its letter, a sign and digits. -/
def isOptionalExponent : List Char → Bool
  | [] => true
  | mark :: sign :: digits =>
    (mark = 'e' || mark = 'E') && (sign = '-' || sign = '+') && isRun isDigit digits
  | _ => false

/-- Whether a text is digits and underscores, then perhaps an exponent. -/
def isFractionTail (text : List Char) : Bool :=
  isOptionalExponent (text.dropWhile isDigitOrBar)

/-- Whether a piece between colons is a count below sixty, in one or two digits. -/
def isSixtieth : List Char → Bool
  | [digit] => isDigit digit
  | [tens, digit] => '0' ≤ tens && tens ≤ '5' && isDigit digit
  | _ => false

/-- Whether a text is two or more pieces between colons, the later ones below sixty. -/
def isSexagesimal (isFirst : List Char → Bool) (text : List Char) : Bool :=
  match Text.split ':' text with
  | first :: second :: rest => isFirst first && (second :: rest).all isSixtieth
  | _ => false

def isBarredNumber : List Char → Bool
  | head :: rest => isDigit head && rest.all isDigitOrBar
  | [] => false

/-- Digits and underscores that begin with a digit other than zero. -/
def isBarredPositive : List Char → Bool
  | head :: rest => isDigit head && head ≠ '0' && rest.all isDigitOrBar
  | [] => false

def isBoolWord (text : List Char) : Bool :=
  [
    "yes", "Yes", "YES", "no", "No", "NO", "true", "True", "TRUE", "false", "False", "FALSE",
    "on", "On", "ON", "off", "Off", "OFF"
  ].contains (String.ofList text)

def isNullWord (text : List Char) : Bool :=
  ["~", "null", "Null", "NULL", ""].contains (String.ofList text)

/-- The words for infinity, after the sign, and for what is no number. -/
def isFloatWord (text : List Char) : Bool :=
  [".inf", ".Inf", ".INF"].contains (String.ofList (afterSign text)) ||
    [".nan", ".NaN", ".NAN"].contains (String.ofList text)

/-- Whether a text is a number with a point. -/
def isPointNumber (text : List Char) : Bool :=
  match Text.cutFirst? ['.'] (afterSign text) with
  | some (whole, tail) => isBarredNumber whole && isFractionTail tail
  | none => false

/-- Whether a text is a point with digits after it. -/
def isLeadingPointNumber : List Char → Bool
  | '.' :: head :: rest => isDigit head && isFractionTail rest
  | _ => false

/-- Whether a text is a number with a point that counts in sixties. -/
def isSexagesimalFloat (text : List Char) : Bool :=
  match Text.cutFirst? ['.'] (afterSign text) with
  | some (whole, fraction) => isSexagesimal isBarredNumber whole && fraction.all isDigitOrBar
  | none => false

def isFloat (text : List Char) : Bool :=
  isPointNumber text || isLeadingPointNumber text || isSexagesimalFloat text || isFloatWord text

/-- Whether a text is a whole number: binary, octal, decimal, hexadecimal or in sixties. -/
def isInt (text : List Char) : Bool :=
  let unsigned := afterSign text
  let isBinaryDigit (character : Char) : Bool :=
    character = '0' || character = '1' || character = '_'
  let isOctalDigit (character : Char) : Bool :=
    ('0' ≤ character && character ≤ '7') || character = '_'
  let isHexDigit (character : Char) : Bool :=
    isDigitOrBar character || ('a' ≤ character && character ≤ 'f') ||
      ('A' ≤ character && character ≤ 'F')
  match unsigned with
  | ['0'] => true
  | '0' :: 'b' :: digits => isRun isBinaryDigit digits
  | '0' :: 'x' :: digits => isRun isHexDigit digits
  | '0' :: digits => isRun isOctalDigit digits
  | _ => isBarredPositive unsigned || isSexagesimal isBarredPositive unsigned

def isShortNumber (text : List Char) : Bool :=
  isRun isDigit text && text.length ≤ 2

def isTwoDigits (text : List Char) : Bool :=
  isRun isDigit text && text.length = 2

def isFourDigits (text : List Char) : Bool :=
  isRun isDigit text && text.length = 4

def isBlank (character : Char) : Bool :=
  character = ' ' || character = '\t'

/-- The parts of a date and a time as they are written. -/
structure TimestampParts where
  year : List Char
  month : List Char
  day : List Char
  /-- Hour, minute and second. -/
  clock : Option (List Char × List Char × List Char)
  fraction : Option (List Char)
  /-- The text of the zone: `Z`, or a sign with hours and perhaps minutes. -/
  zone : Option (List Char)
  deriving DecidableEq, Repr

/-- Whether a text is a zone: `Z`, or a sign, one or two digits, and perhaps two more. -/
def isZone : List Char → Bool
  | ['Z'] => true
  | sign :: rest =>
    (sign = '-' || sign = '+') &&
      match Text.split ':' rest with
      | [hours] => isShortNumber hours
      | [hours, minutes] => isShortNumber hours && isTwoDigits minutes
      | _ => false
  | [] => false

/-- The second with its fraction, and the zone after white space. -/
def splitSecond? (text : List Char) :
    Option (List Char × Option (List Char) × Option (List Char)) := do
  let second := text.takeWhile isDigit
  let rest := text.dropWhile isDigit
  let (fraction, rest) :=
    match rest with
    | '.' :: digits => (some (digits.takeWhile isDigit), digits.dropWhile isDigit)
    | _ => (none, rest)
  if !isTwoDigits second then none
  else if rest.isEmpty then some (second, fraction, none)
  else
    let zone := rest.dropWhile isBlank
    if isZone zone then some (second, fraction, some zone) else none

/-- The parts of a text that is a date, or a date with a time. -/
def timestampParts? (text : List Char) : Option TimestampParts := do
  let (year, rest) ← Text.cutFirst? ['-'] text
  let (month, rest) ← Text.cutFirst? ['-'] rest
  let day := rest.takeWhile isDigit
  let rest := rest.dropWhile isDigit
  if !isFourDigits year then none
  else if rest.isEmpty then
    if isShortNumber month && isShortNumber day then some ⟨year, month, day, none, none, none⟩
    else none
  else
    let time :=
      match rest with
      | 'T' :: time => some time
      | 't' :: time => some time
      | blank :: _ => if isBlank blank then some (rest.dropWhile isBlank) else none
      | [] => none
    let time ← time
    let (hour, time) ← Text.cutFirst? [':'] time
    let (minute, time) ← Text.cutFirst? [':'] time
    let (second, fraction, zone) ← splitSecond? time
    if isShortNumber month && isShortNumber day && isShortNumber hour && isTwoDigits minute then
      some ⟨year, month, day, some (hour, minute, second), fraction, zone⟩
    else
      none

/-- Whether a plain text is a date, or a date with a time; a date alone has all its digits. -/
def isTimestamp (text : List Char) : Bool :=
  match timestampParts? text with
  | some parts => parts.clock.isSome || (isTwoDigits parts.month && isTwoDigits parts.day)
  | none => false

/-- The text without a line feed at its end, which does not count where a text is matched. -/
def withoutLastBreak (text : List Char) : List Char :=
  if text.getLast? = some '\n' then text.dropLast else text

def ofPlain (text : List Char) : Tag :=
  if isBoolWord text then .bool
  else if isFloat text then .float
  else if isInt text then .int
  else if text = ['<', '<'] then .merge
  else if isNullWord text then .null
  else if isTimestamp text then .timestamp
  else if text = ['='] then .defaultValue
  else if text = ['!'] ∨ text = ['&'] ∨ text = ['*'] then .reserved
  else .string

/-- The kind of a scalar whose form does not decide it.  A line feed at its end does not count,
unless it is all there is. -/
def ofText (text : List Char) : Tag :=
  if text = ['\n'] then .string else ofPlain (withoutLastBreak text)

end Tag
end Provenance.Yaml
