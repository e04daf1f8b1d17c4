/-!
Contract: quotients of whole numbers rounded to whole numbers.

Owns: `roundQuotient`.

Does **not** own: floating-point formats.
-/

set_option autoImplicit false

namespace Provenance.Number

/-- A quotient rounded to the nearest whole number, a half to the even neighbour. -/
def roundQuotient (numerator denominator : Nat) : Nat :=
  let quotient := numerator / denominator
  let doubled := 2 * (numerator % denominator)
  if doubled > denominator || (doubled == denominator && quotient % 2 == 1) then
    quotient + 1
  else
    quotient

end Provenance.Number
