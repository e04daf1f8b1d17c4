import Provenance.Number.Binary64

/-!
Contract: decimal texts of floating-point numbers.

Owns:
- `ofDecimal`, the number nearest to a decimal fraction;
- `shortest`, the fewest decimal digits that read back as the number;
- `rounded`, a fixed count of significant digits;
- the two layouts `Binary64.text` and `Binary64.general`.

Does **not** own: which decimal texts a data format accepts, and how a format
spells infinity and NaN.

## Why the shortest digits are found by search

The reals that read back as a number form an interval.  For each count of digits
only the two neighbours of the number on that decimal grid can lie in it, so
trying 1, 2, … 17 digits finds the least count, and of two hits the nearer wins.
-/

set_option autoImplicit false

namespace Provenance.Number

/-- Decimal digits `0.d₁d₂…` times ten to the `point`; zero has no digits. -/
structure Digits where
  digits : List Char
  point : Int
  deriving DecidableEq, Repr

namespace Digits

def withoutTrailingZeros (digits : List Char) : List Char :=
  (digits.reverse.dropWhile (· = '0')).reverse

/-- The digits of `number * 10 ^ scale`. -/
def ofScaled (number : Nat) (scale : Int) : Digits :=
  let digits := Nat.toDigits 10 number
  if number = 0 then ⟨[], 0⟩
  else ⟨withoutTrailingZeros digits, digits.length + scale⟩

/-- An exponent with its sign and at least two digits. -/
def exponentText (exponent : Int) : List Char :=
  let digits := Nat.toDigits 10 exponent.natAbs
  (if exponent < 0 then '-' else '+') ::
    (List.replicate (2 - digits.length) '0' ++ digits)

/-- Scientific layout: one digit, a point if more follow, and the exponent. -/
def scientific (number : Digits) : List Char :=
  match number.digits with
  | [] => ['0']
  | [digit] => digit :: 'e' :: exponentText (number.point - 1)
  | digit :: rest => digit :: '.' :: rest ++ 'e' :: exponentText (number.point - 1)

/-- Positional layout: the digits before the point, and those after it if there are any. -/
def positionalParts (number : Digits) : List Char × List Char :=
  if number.point ≤ 0 then
    (['0'],
      if number.digits.isEmpty then []
      else List.replicate (-number.point).toNat '0' ++ number.digits)
  else
    let whole := number.point.toNat
    (number.digits.take whole ++ List.replicate (whole - number.digits.length) '0',
      number.digits.drop whole)

end Digits

namespace Binary64

/-- The number nearest to `digits * 10 ^ scale`.

Far outside the format the answer is known from the count of digits alone, so no
huge power of ten is built. -/
def ofDecimal (negative : Bool) (digits : Nat) (scale : Int) : Binary64 :=
  let magnitude : Int := (Nat.toDigits 10 digits).length + scale
  if digits = 0 then zero negative
  else if magnitude > 400 then .infinite negative
  else if magnitude < -400 then zero negative
  else if 0 ≤ scale then ofQuotient negative (digits * Nat.pow 10 scale.toNat) 1
  else ofQuotient negative digits (Nat.pow 10 (-scale).toNat)

/-- A positive quotient over one denominator, with the ends of the interval that reads back. -/
structure Interval where
  low : Nat
  value : Nat
  high : Nat
  denominator : Nat
  closed : Bool

/-- The reals that round to `significand * 2 ^ exponent`, in quarters of the last bit. -/
def interval (significand : Nat) (exponent : Int) : Interval :=
  let below := if significand = Nat.pow 2 52 ∧ leastExponent < exponent then 1 else 2
  let quarter := exponent - 2
  let factor := if 0 ≤ quarter then Nat.pow 2 quarter.toNat else 1
  {
    low := (4 * significand - below) * factor
    value := 4 * significand * factor
    high := (4 * significand + 2) * factor
    denominator := if 0 ≤ quarter then 1 else Nat.pow 2 (-quarter).toNat
    closed := significand % 2 == 0
  }

/-- `number * 10 ^ scale` as a quotient. -/
def scaled (number : Nat) (scale : Int) : Nat × Nat :=
  if 0 ≤ scale then (number * Nat.pow 10 scale.toNat, 1) else (number, Nat.pow 10 (-scale).toNat)

/-- Whether `candidate * 10 ^ scale` reads back. -/
def Interval.holds (around : Interval) (candidate : Nat) (scale : Int) : Bool :=
  let (numerator, denominator) := scaled candidate scale
  let lowSide := around.low * denominator
  let highSide := around.high * denominator
  let middle := numerator * around.denominator
  if around.closed then lowSide ≤ middle && middle ≤ highSide
  else lowSide < middle && middle < highSide

/-- The count of decimal digits before the point of a positive quotient; zero or less below one. -/
def decimalPoint (numerator denominator : Nat) : Int :=
  let estimate := (leadingBit numerator denominator * 30103) / 100000
  let reaches (point : Int) : Bool :=
    let (powerNumerator, powerDenominator) := scaled 1 point
    powerNumerator * denominator ≤ numerator * powerDenominator
  if reaches (estimate + 1) then estimate + 2
  else if reaches estimate then estimate + 1
  else estimate

/-- The neighbour on the grid of `10 ^ scale` that reads back and lies nearer, if one does. -/
def Interval.neighbour? (around : Interval) (scale : Int) : Option Nat :=
  let (numerator, denominator) :=
    if 0 ≤ scale then (around.value, around.denominator * Nat.pow 10 scale.toNat)
    else (around.value * Nat.pow 10 (-scale).toNat, around.denominator)
  let below := numerator / denominator
  let nearer := roundQuotient numerator denominator
  let farther := if nearer = below then below + 1 else below
  if around.holds nearer scale then some nearer
  else if around.holds farther scale then some farther
  else none

/-- The fewest digits that read back as `significand * 2 ^ exponent`. -/
def shortest (significand : Nat) (exponent : Int) : Digits :=
  if significand = 0 then ⟨[], 0⟩
  else
    let around := interval significand exponent
    let point := decimalPoint around.value around.denominator
    let found := (List.range 17).findSome? fun (count : Nat) =>
      let scale := point - (count + 1 : Int)
      (around.neighbour? scale).map fun candidate => Digits.ofScaled candidate scale
    found.getD ⟨[], 0⟩

/-- The exact value rounded to `count` significant digits, a half to the even neighbour. -/
def rounded (count : Nat) (significand : Nat) (exponent : Int) : Digits :=
  if significand = 0 then ⟨[], 0⟩
  else
    let around := interval significand exponent
    let scale := decimalPoint around.value around.denominator - count
    let (numerator, denominator) :=
      if 0 ≤ scale then (around.value, around.denominator * Nat.pow 10 scale.toNat)
      else (around.value * Nat.pow 10 (-scale).toNat, around.denominator)
    Digits.ofScaled (roundQuotient numerator denominator) scale

private def signed (negative : Bool) (text : List Char) : String :=
  String.ofList (if negative then '-' :: text else text)

/-- The shortest text: positional from `0.0001` to below `10 ^ 16`, scientific beyond. -/
def text : Binary64 → String
  | .nan => "nan"
  | .infinite negative => if negative then "-inf" else "inf"
  | .finite negative significand exponent =>
    let number := shortest significand exponent
    if -4 < number.point && number.point ≤ 16 then
      let (whole, fraction) := number.positionalParts
      signed negative (whole ++ '.' :: (if fraction.isEmpty then ['0'] else fraction))
    else
      signed negative number.scientific

/-- Six significant digits without zeros at the end, scientific below `0.0001` and from `10 ^ 6`. -/
def general : Binary64 → String
  | .nan => "nan"
  | .infinite negative => if negative then "-inf" else "inf"
  | .finite negative significand exponent =>
    let number := rounded 6 significand exponent
    if number.digits.isEmpty || (-4 < number.point && number.point ≤ 6) then
      let (whole, fraction) := number.positionalParts
      signed negative (if fraction.isEmpty then whole else whole ++ '.' :: fraction)
    else
      signed negative number.scientific

end Binary64
end Provenance.Number
