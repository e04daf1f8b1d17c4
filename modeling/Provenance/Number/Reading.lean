import Provenance.Number.Decimal
import Provenance.Text.Case
import Provenance.Text.Digits

/-!
Contract: floating-point numbers read from free-standing texts.

Owns: `Binary64.ofText?`.

Does **not** own: the number grammars of the data formats, which are narrower.
-/

set_option autoImplicit false

namespace Provenance.Number.Binary64

open Text (takeSign)

/-- The number that digits denote; no digits are zero digits. -/
def digitsOf (digits : List Char) : Option (List Nat) :=
  digits.mapM Text.digitValue?

/-- The power of ten behind the letter of an exponent. -/
def exponentOf? (text : List Char) : Option Int := do
  let (negative, digits) := takeSign text
  let values ← digitsOf digits
  if values.isEmpty then none
  else
    let power : Int := Text.positional 10 values
    some (if negative then -power else power)

/-- A number without sign: digits with one point at most, then perhaps an exponent. -/
def unsignedOf? (negative : Bool) (text : List Char) : Option Binary64 := do
  let isMark (character : Char) : Bool := character = 'e' || character = 'E'
  let mantissa := text.takeWhile fun c => !isMark c
  let exponent ←
    match text.dropWhile fun c => !isMark c with
    | [] => some 0
    | _ :: rest => exponentOf? rest
  let (whole, fraction) := (Text.cutFirst? ['.'] mantissa).getD (mantissa, [])
  let digits ← digitsOf (whole ++ fraction)
  if digits.isEmpty then none
  else some (ofDecimal negative (Text.positional 10 digits) (exponent - fraction.length))

/-- The number that a text denotes, with white space around it. -/
def ofText? (text : List Char) : Option Binary64 :=
  let (negative, unsigned) := takeSign (Text.trimNumber text)
  let word := Text.lower (String.ofList unsigned)
  if word = "inf" ∨ word = "infinity" then some (.infinite negative)
  else if word = "nan" then some .nan
  else unsignedOf? negative unsigned

end Provenance.Number.Binary64
