import Provenance.Data.Display
import Provenance.Failure.Fault
import Provenance.Text.Digits

/-!
Contract: what is asked of a measure of time.

Owns:
- `Timekeeping`, the operations on moments and spans;
- its instance for settings values, where a limit may be of any kind;
- its instance for rational numbers, where every operation is exact and total.

Does **not** own: the clock, which is part of the world.

## Why two instances

A limit comes from the user's settings, so at run time it may be a text or a
list, and using it is a fault.  Laws about time hold of exact numbers.  Programs
are written once, for any measure.
-/

set_option autoImplicit false

namespace Provenance.World

open Data (Value Scalar Kind)
open Failure (Fault)
open Number (Binary64)

/-- A measure of moments and spans.  Values of a wrong kind are faults. -/
class Timekeeping (Time : Type) where
  /-- Whether a span counts as a limit at all. -/
  isSet : Time → Bool
  /-- Whether a span stands for the absence of a limit. -/
  isAbsent : Time → Bool
  add : Time → Time → Except Fault Time
  sub : Time → Time → Except Fault Time
  /-- Whether the first span is longer than the second. -/
  exceeds : Time → Time → Except Fault Bool
  isSpent : Time → Except Fault Bool
  seconds : Time → Except Fault String

instance : Timekeeping Rat where
  isSet span := decide (span ≠ 0)
  isAbsent _ := false
  add left right := .ok (left + right)
  sub left right := .ok (left - right)
  exceeds left right := .ok (decide (right < left))
  isSpent span := .ok (decide (span ≤ 0))
  seconds span := .ok (Binary64.ofRat false span).general

/-- A number: a whole one, or a floating-point one. -/
inductive Numeric where
  | whole (value : Int)
  | float (value : Binary64)
  deriving DecidableEq, Repr

namespace Numeric

/-- The number that a value is.  Truth values are numbers too. -/
def ofValue? : Value → Option Numeric
  | .scalar (.bool value) => some (.whole (if value then 1 else 0))
  | .scalar (.int value) => some (.whole value)
  | .scalar (.float value) => some (.float value)
  | _ => none

def toValue : Numeric → Value
  | .whole value => .int value
  | .float value => .float value

/-- The number in floating point; a whole one beyond the format is a fault. -/
def toFloat : Numeric → Except Fault Binary64
  | .float value => .ok value
  | .whole value =>
    match Binary64.ofInt value with
    | .infinite _ => .error (.overflow "int too large to convert to float")
    | number => .ok number

/-- A sum or difference: exact on whole numbers, else in floating point. -/
def combine (onWhole : Int → Int → Int) (onFloat : Binary64 → Binary64 → Binary64)
    (left right : Numeric) : Except Fault Numeric :=
  match left, right with
  | .whole leftValue, .whole rightValue => .ok (.whole (onWhole leftValue rightValue))
  | _, _ => do
    let leftValue ← left.toFloat
    let rightValue ← right.toFloat
    pure (.float (onFloat leftValue rightValue))

def toRat? : Numeric → Option Rat
  | .whole value => some value
  | .float value => value.toRat?

/-- Whether the first number is greater than the second. -/
def greater (left right : Numeric) : Bool :=
  match left.toRat?, right.toRat? with
  | some leftValue, some rightValue => decide (rightValue < leftValue)
  | _, _ =>
    match left, right with
    | .float .nan, _ => false
    | _, .float .nan => false
    | .float (.infinite leftNegative), .float (.infinite rightNegative) =>
      !leftNegative && rightNegative
    | .float (.infinite negative), _ => !negative
    | _, .float (.infinite negative) => negative
    | _, _ => false

end Numeric

/-- An operation on two values that must be numbers. -/
def onNumbers {Result : Type} (fault : Kind → Kind → Fault)
    (operation : Numeric → Numeric → Except Fault Result) (left right : Value) :
    Except Fault Result :=
  match Numeric.ofValue? left, Numeric.ofValue? right with
  | some leftNumber, some rightNumber => operation leftNumber rightNumber
  | _, _ => .error (fault left.kind right.kind)

/-- Whether the first value is greater than the second; two texts have an order as well. -/
def valueExceeds (left right : Value) : Except Fault Bool :=
  match left, right with
  | .scalar (.text leftText), .scalar (.text rightText) => .ok (decide (rightText < leftText))
  | _, _ =>
    onNumbers (.incomparable ">") (fun leftNumber rightNumber =>
      .ok (leftNumber.greater rightNumber)) left right

/-- The text of a span in seconds: six significant digits. -/
def valueSeconds (span : Value) : Except Fault String :=
  match Numeric.ofValue? span with
  | some number => number.toFloat.map Binary64.general
  | none =>
    match span with
    | .scalar (.text _) => .error (.noNumberPresentation .text)
    | other => .error (.noPresentation other.kind)

/-- Settings values measure time as far as they are numbers. -/
instance : Timekeeping Value where
  isSet span := span.isTruthy
  isAbsent span := span.kind == .null
  add := onNumbers (.notCombinable "+") fun left right =>
    (Numeric.combine (· + ·) Binary64.add left right).map Numeric.toValue
  sub := onNumbers (.notCombinable "-") fun left right =>
    (Numeric.combine (· - ·) Binary64.sub left right).map Numeric.toValue
  exceeds := valueExceeds
  isSpent span :=
    onNumbers (.incomparable "<=") (fun left right => .ok (!left.greater right && !isNaN left))
      span (.int 0)
  seconds := valueSeconds
where
  isNaN : Numeric → Bool
    | .float .nan => true
    | _ => false

end Provenance.World
