import Provenance.Data.Value
import Provenance.Failure.Fault
import Provenance.Number.Reading
import Provenance.Yaml.Tag
import Provenance.Yaml.Token

/-!
Contract: what the texts of YAML scalars denote.

Owns: the value of a text as a truth value, a whole number, a floating-point number, a
moment, or octets.

Does **not** own: which of these a scalar is.

## Numbers in other bases

A whole number is read without its underscores and its sign.  What then begins with a
zero is octal, or binary or hexadecimal if its mark follows.  The digits behind the
mark are read by themselves, so they may have white space around them, a sign and a
mark of their own.
-/

set_option autoImplicit false

namespace Provenance.Yaml

open Data (Scalar Date Clock)
open Failure (Fault)
open Number (Binary64)

def withoutBars (text : List Char) : List Char :=
  text.filter (· ≠ '_')

def boolWords : List (String × Bool) :=
  [
    ("yes", true), ("no", false), ("true", true), ("false", false), ("on", true), ("off", false)
  ]

def boolOf (text : List Char) : Except Complaint Scalar :=
  let word := Text.lower (String.ofList text)
  match boolWords.lookup word with
  | some value => .ok (.bool value)
  | none => .error (.unknownWord word)

/-- The sign of a number and the text after it; the text may not be empty. -/
def signOf (text : List Char) : Except Complaint (Bool × List Char) :=
  match text with
  | [] => .error .emptyText
  | '-' :: rest => .ok (true, rest)
  | '+' :: rest => .ok (false, rest)
  | _ => .ok (false, text)

def decimalOf (text : List Char) : Except Complaint Int :=
  match Text.readInteger (String.ofList text) with
  | .number value => .ok value
  | .malformed => .error (.badValue (Fault.notAnInteger (Text.quoted (String.ofList text))).message)
  | .tooLong digits => .error (.badValue (Fault.tooManyDigits digits).message)

/-- A whole number in base two, eight or sixteen, with the letters of its mark. -/
def basedOf (base : Nat) (letters : List Char) (text : List Char) : Except Complaint Int :=
  match Text.readBased? base letters text with
  | some value => .ok value
  | none => .error (.badValue "invalid literal for int()")

/-- The sum of pieces, each worth sixty times the next one. -/
def sexagesimal (pieces : List Int) : Int :=
  pieces.foldl (fun total piece => total * 60 + piece) 0

/-- A whole number: binary, hexadecimal, octal, in sixties, or decimal. -/
def intOf (text : List Char) : Except Complaint Scalar := do
  let (negative, digits) ← signOf (withoutBars text)
  let magnitude ←
    match digits with
    | ['0'] => pure 0
    | '0' :: 'b' :: rest => basedOf 2 ['b', 'B'] rest
    | '0' :: 'x' :: rest => basedOf 16 ['x', 'X'] rest
    | '0' :: _ => basedOf 8 ['o', 'O'] digits
    | [] => throw .emptyText
    | _ =>
      if digits.contains ':' then
        sexagesimal <$> (Text.split ':' digits).mapM decimalOf
      else decimalOf digits
  pure (.int (if negative then -magnitude else magnitude))

def fractionOf (text : List Char) : Except Complaint Binary64 :=
  match Binary64.ofText? text with
  | some value => .ok value
  | none =>
    .error (.badValue ("could not convert string to float: " ++ Text.quoted (String.ofList text)))

/-- What a piece is worth at a place; the worth of the place must be within the format. -/
def placeValue (base : Int) (piece : Binary64) : Except Complaint Binary64 :=
  match Binary64.ofInt base with
  | .infinite _ => .error (.overflow "int too large to convert to float")
  | factor => .ok (piece.mul factor)

/-- The sum of pieces, the last one worth itself and each other sixty times the next. -/
def sexagesimalFraction (pieces : List Binary64) : Except Complaint Binary64 := do
  let (total, _) ← pieces.reverse.foldlM
    (fun (total, base) piece => do
      let value ← placeValue base piece
      pure (total.add value, base * 60))
    (Binary64.zero false, (1 : Int))
  pure total

/-- A floating-point number: infinity, no number, in sixties, or decimal. -/
def floatOf (text : List Char) : Except Complaint Scalar := do
  let lowered := (Text.lower (String.ofList (withoutBars text))).toList
  let (negative, digits) ← signOf lowered
  if digits = ['.', 'n', 'a', 'n'] then pure (.float .nan)
  else
    let magnitude ←
      if digits = ['.', 'i', 'n', 'f'] then pure (.infinite false)
      else if digits.contains ':' then
        (Text.split ':' digits).mapM fractionOf >>= sexagesimalFraction
      else fractionOf digits
    pure (.float (if negative then magnitude.neg else magnitude))

def countOf (digits : List Char) : Nat :=
  Json.digitsValue digits

/-- The distance of a zone in minutes; it must be less than a day. -/
def zoneOf (text : List Char) : Except Complaint Int :=
  match text with
  | '-' :: rest => (distance rest).map fun minutes => -minutes
  | '+' :: rest => distance rest
  | _ => .ok 0
where
  distance (text : List Char) : Except Complaint Int :=
    let (hours, minutes) := (Text.cutFirst? [':'] text).getD (text, [])
    let total := countOf hours * 60 + countOf minutes
    if total < 1440 then .ok total else .error (.badValue "offset must be less than a day")

/-- A date, or a date with a time of day. -/
def momentOf (text : List Char) : Except Complaint Scalar :=
  match Tag.timestampParts? (Tag.withoutLastBreak text) with
  | none => .error .noMoment
  | some parts => do
    let date : Date := ⟨countOf parts.year, countOf parts.month, countOf parts.day⟩
    match parts.clock with
    | none =>
      if date.isValid then pure (.date date) else throw (.badValue "day is out of range for month")
    | some (hour, minute, second) =>
      let zone ← parts.zone.mapM zoneOf
      let fraction := (parts.fraction.getD []).take 6
      let micro := countOf (fraction ++ List.replicate (6 - fraction.length) '0')
      let clock : Clock := ⟨countOf hour, countOf minute, countOf second, micro, zone⟩
      if date.isValid && clock.isValid then pure (.datetime date clock)
      else throw (.badValue "day is out of range for month")

def sextet? (character : Char) : Option Nat :=
  let code := character.toNat
  if 65 ≤ code ∧ code ≤ 90 then some (code - 65)
  else if 97 ≤ code ∧ code ≤ 122 then some (code - 71)
  else if 48 ≤ code ∧ code ≤ 57 then some (code + 4)
  else if character = '+' then some 62
  else if character = '/' then some 63
  else none

/-- The octets of a text in base sixty-four.

`held` are the bits that no octet has taken yet, and `count` is how many
characters of the group of four have been read.  A full group of fillers ends the
text. -/
def octetsOf (held count fillers : Nat) : List Char → Except Complaint (List Nat)
  | [] => if count = 0 then .ok [] else .error (.malformed "failed to decode base64 data")
  | character :: rest =>
    if character = '=' then
      if 2 ≤ count ∧ 4 ≤ count + fillers + 1 then .ok []
      else octetsOf held count (if 2 ≤ count then fillers + 1 else fillers) rest
    else
      match sextet? character with
      | none => octetsOf held count fillers rest
      | some bits =>
        match count with
        | 0 => octetsOf bits 1 0 rest
        | 1 => (octetsOf (bits % 16) 2 0 rest).map fun octets => (held * 4 + bits / 16) :: octets
        | 2 => (octetsOf (bits % 4) 3 0 rest).map fun octets => (held * 16 + bits / 4) :: octets
        | _ => (octetsOf 0 0 0 rest).map fun octets => (held * 64 + bits) :: octets

/-- Octets in base sixty-four, in ASCII. -/
def binaryOf (text : List Char) : Except Complaint Scalar := do
  if text.any fun c => 127 < c.toNat then
    throw (.malformed "failed to convert base64 data into ascii")
  let octets ← octetsOf 0 0 0 text
  pure (.bytes (octets.map UInt8.ofNat))

end Provenance.Yaml
