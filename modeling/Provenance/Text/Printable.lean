import Provenance.Text.PrintableTable

/-!
Contract: which characters have a visible form.

Owns: `isPrintable`.

Does **not** own: the table of ranges, and how an invisible character is written.
-/

set_option autoImplicit false

namespace Provenance.Text

/-- Whether a character has a visible form; of the separators only the space has one. -/
def isPrintable (character : Char) : Bool :=
  let code := character.toNat
  if code < 0x7f then
    32 ≤ code
  else
    !PrintableTable.unprintableRanges.any fun (low, high) => low ≤ code && code ≤ high

end Provenance.Text
