import Provenance.Number.Rounding
import Provenance.Table.Wrap

/-!
Contract: how wide the columns of a table are.

Owns:
- `textWidth`, the room that a text asks for;
- `collapse` and `reduce`, which take room away from the widest columns, and from
  all of them where that is not enough;
- `columnWidths`, the widths of all columns within a total.

Does **not** own: borders.
-/

set_option autoImplicit false

namespace Provenance.Table

def padding : Nat := 2

/-- Whether a character ends a line when a text is measured. -/
def endsLine (character : Char) : Bool :=
  [10, 28, 29, 30, 0x85, 0x2028, 0x2029].contains character.toNat

/-- The room that a text asks for: that of its longest line. -/
def textWidth (text : List Char) : Nat :=
  let lines := Text.split '\n' (text.map fun character =>
    if endsLine character then '\n' else character)
  (lines.map cells).foldl max 0

/-- The room that a column asks for within a total. -/
def wantedWidth (total : Nat) (texts : List (List Char)) : Nat :=
  if total < padding + 1 then total
  else (texts.map fun text => min total (textWidth text + padding)).foldl max 0

def totalWidth (widths : List Nat) : Nat :=
  widths.foldl (· + ·) 0

/-- Takes room away from widths.  Each entry has its share, the most it can give, and its width;
`shares` is the sum of the shares that are left. -/
def reduceWith (total shares : Nat) : List (Nat × Nat × Nat) → List Nat
  | [] => []
  | (share, most, width) :: rest =>
    if share = 0 || shares = 0 then
      width :: reduceWith total shares rest
    else
      let taken := min most (Number.roundQuotient (share * total) shares)
      (width - taken) :: reduceWith (total - taken) (shares - share) rest

/-- Takes room away from the widths that have a share and can give something. -/
def reduce (total : Nat) (parts : List (Nat × Nat × Nat)) : List Nat :=
  let parts := parts.map fun (share, most, width) =>
    (if most = 0 then 0 else share, most, width)
  reduceWith total (totalWidth (parts.map Prod.fst)) parts

/-- Brings the widest columns down to the next narrower ones until the total is reached, in at most
so many steps. -/
def collapse (total : Nat) : Nat → List Nat → List Nat
  | 0, widths => widths
  | steps + 1, widths =>
    let excess := totalWidth widths - total
    let widest := widths.foldl max 0
    let second := (widths.filter (· ≠ widest)).foldl max 0
    if excess = 0 || widest = second then widths
    else
      collapse total steps <|
        reduce excess (widths.map fun width =>
          (if width = widest then 1 else 0, min excess (widest - second), width))

/-- The widths of some columns of texts, padding included, within a total. -/
def columnWidths (total : Nat) (columns : List (List (List Char))) : List Nat :=
  let wanted := columns.map fun texts => max 1 (wantedWidth total texts)
  if totalWidth wanted ≤ total then wanted
  else
    let collapsed := collapse total (totalWidth wanted) wanted
    let widths :=
      if totalWidth collapsed ≤ total then collapsed
      else
        reduce (totalWidth collapsed - total) (collapsed.map fun width => (1, width, width))
    (widths.zip columns).map fun (width, texts) => wantedWidth width texts

end Provenance.Table
