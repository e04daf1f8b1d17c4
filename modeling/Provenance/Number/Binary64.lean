import Provenance.Number.Rounding

/-!
Contract: binary floating-point numbers with 53 significant bits.

Owns:
- `Binary64`, a number in the double format as sign, significand and exponent;
- `ofQuotient`, the number of the format that is nearest to a quotient;
- arithmetic and comparison, each the exact result rounded once.

Does **not** own: any text of a number.

## Why no machine floats

The operations here are exact arithmetic followed by one rounding, which is what
the format prescribes, and a proof can follow them.
-/

set_option autoImplicit false

namespace Provenance.Number

/-- A number of the double format.

A finite one is `significand * 2 ^ exponent`.  Every operation returns the
canonical form: the exponent is at least `-1074`, and above it the significand
has exactly 53 bits. -/
inductive Binary64 where
  | finite (negative : Bool) (significand : Nat) (exponent : Int)
  | infinite (negative : Bool)
  | nan
  deriving DecidableEq, Repr

namespace Binary64

def leastExponent : Int := -1074

def greatestExponent : Int := 971

def zero (negative : Bool) : Binary64 := .finite negative 0 leastExponent

/-- The exponent of the leading bit of a positive quotient. -/
def leadingBit (numerator denominator : Nat) : Int :=
  let guess : Int := (numerator.log2 : Int) - denominator.log2
  let reached :=
    if 0 ≤ guess then denominator * Nat.pow 2 guess.toNat ≤ numerator
    else denominator ≤ numerator * Nat.pow 2 (-guess).toNat
  if reached then guess else guess - 1

/-- The number nearest to a quotient; beyond the format it is infinite. -/
def ofQuotient (negative : Bool) (numerator denominator : Nat) : Binary64 :=
  if numerator = 0 then
    zero negative
  else
    let exponent := max (leadingBit numerator denominator - 52) leastExponent
    let significand :=
      if 0 ≤ exponent then roundQuotient numerator (denominator * Nat.pow 2 exponent.toNat)
      else roundQuotient (numerator * Nat.pow 2 (-exponent).toNat) denominator
    let (significand, exponent) :=
      if significand = Nat.pow 2 53 then (Nat.pow 2 52, exponent + 1) else (significand, exponent)
    if exponent > greatestExponent then .infinite negative
    else .finite negative significand exponent

/-- The number nearest to a rational number; zero takes the given sign. -/
def ofRat (zeroNegative : Bool) (value : Rat) : Binary64 :=
  if value = 0 then zero zeroNegative
  else ofQuotient (decide (value < 0)) value.num.natAbs value.den

def ofInt (value : Int) : Binary64 :=
  ofQuotient (decide (value < 0)) value.natAbs 1

def toRat? : Binary64 → Option Rat
  | .finite negative significand exponent =>
    let magnitude : Rat :=
      if 0 ≤ exponent then mkRat (significand * Nat.pow 2 exponent.toNat) 1
      else mkRat significand (Nat.pow 2 (-exponent).toNat)
    some (if negative then -magnitude else magnitude)
  | _ => none

/-- Whether the sign is negative; NaN has none. -/
def isNegative : Binary64 → Bool
  | .finite negative _ _ => negative
  | .infinite negative => negative
  | .nan => false

/-- Whether the number is zero, of either sign. -/
def isZero : Binary64 → Bool
  | .finite _ significand _ => significand == 0
  | _ => false

def neg : Binary64 → Binary64
  | .finite negative significand exponent => .finite (!negative) significand exponent
  | .infinite negative => .infinite (!negative)
  | .nan => .nan

/-- The sum, rounded once. -/
def add (left right : Binary64) : Binary64 :=
  match left, right with
  | .nan, _ => .nan
  | _, .nan => .nan
  | .infinite leftNegative, .infinite rightNegative =>
    if leftNegative = rightNegative then .infinite leftNegative else .nan
  | .infinite negative, _ => .infinite negative
  | _, .infinite negative => .infinite negative
  | _, _ =>
    match left.toRat?, right.toRat? with
    | some leftValue, some rightValue =>
      ofRat (left.isNegative && right.isNegative) (leftValue + rightValue)
    | _, _ => .nan

/-- The difference, rounded once. -/
def sub (left right : Binary64) : Binary64 :=
  left.add right.neg

/-- The product, rounded once. -/
def mul (left right : Binary64) : Binary64 :=
  let negative := left.isNegative != right.isNegative
  match left, right with
  | .nan, _ => .nan
  | _, .nan => .nan
  | .infinite _, other => if other.isZero then .nan else .infinite negative
  | other, .infinite _ => if other.isZero then .nan else .infinite negative
  | _, _ =>
    match left.toRat?, right.toRat? with
    | some leftValue, some rightValue => ofRat negative (leftValue * rightValue)
    | _, _ => .nan

/-- Exact order of two numbers; none with NaN. -/
def compare? (left right : Binary64) : Option Ordering :=
  match left, right with
  | .nan, _ => none
  | _, .nan => none
  | .infinite leftNegative, .infinite rightNegative =>
    some (if leftNegative = rightNegative then .eq else if leftNegative then .lt else .gt)
  | .infinite negative, _ => some (if negative then .lt else .gt)
  | _, .infinite negative => some (if negative then .gt else .lt)
  | _, _ =>
    match left.toRat?, right.toRat? with
    | some leftValue, some rightValue =>
      some (if leftValue < rightValue then .lt else if leftValue = rightValue then .eq else .gt)
    | _, _ => none

/-- The whole part of a finite number, toward zero. -/
def truncate? : Binary64 → Option Int
  | .finite negative significand exponent =>
    let magnitude : Nat :=
      if 0 ≤ exponent then significand * Nat.pow 2 exponent.toNat
      else significand / Nat.pow 2 (-exponent).toNat
    some (if negative then -(magnitude : Int) else magnitude)
  | _ => none

def isWhole (number : Binary64) : Bool :=
  match number.toRat? with
  | some value => value.den == 1
  | none => false

end Binary64
end Provenance.Number
