import Provenance.Data.Value

/-!
Contract: the order in which a set shows its members.

Owns: `inSlots`, the members of a set in the order of a table that their numbers
choose places in.

Does **not** own: sets whose members are no numbers, which keep the order in which
they were put in.

## The table

The table has at least twice as many slots as there are members, and the count of
slots is a power of two.  A member goes to the slot of its number, counted around the
table.  If that is taken, it goes to one of the next slots, and if these are taken as
well, on to a slot that depends on further digits of its number.
-/

set_option autoImplicit false

namespace Provenance.Data

/-- How many slots behind a taken one are tried. -/
def slotRun : Nat := 9

/-- The count of words that two powers of two divide numbers into. -/
def wordBound : Nat := Nat.pow 2 64

/-- The numbers that members are placed by are counted around this prime. -/
def placePrime : Nat := Nat.pow 2 61 - 1

/-- The number that a whole number is placed by, as a word. -/
def placeNumber (value : Int) : Nat :=
  let rest := value.natAbs % placePrime
  if 0 ≤ value then rest
  else if rest = 1 then wordBound - 2
  else (wordBound - rest) % wordBound

/-- The slots that a member can take, in the order in which they are tried. -/
def slotsFrom (size : Nat) : Nat → Nat → Nat → List Nat
  | 0, _, _ => []
  | tries + 1, slot, digits =>
    let near := if slot + slotRun < size then List.range (slotRun + 1) else [0]
    let digits := digits / 32
    near.map (slot + ·) ++ slotsFrom size tries ((slot * 5 + 1 + digits) % size) digits

/-- The table with one more member, in the first free slot of those that it can take. -/
def putInSlot (table : Array (Option Scalar)) (member : Scalar) (number : Nat) :
    Array (Option Scalar) :=
  let size := table.size
  let slots := slotsFrom size (size + 16) (number % size) number
  match slots.find? fun slot => (table[slot]?.getD none).isNone with
  | some slot => table.setIfInBounds slot (some member)
  | none => table

/-- The least power of two, from eight on, that is greater than a count. -/
def tableSize (count : Nat) : Nat → Nat → Nat
  | 0, size => size
  | doublings + 1, size => if size ≤ count then tableSize count doublings (size * 2) else size

/-- The members of a set in the order in which it shows them. -/
def inSlots (members : List Scalar) : List Scalar :=
  match members.mapM Scalar.whole? with
  | none => members
  | some numbers =>
    let count := members.length
    let size := if count < 5 then 8 else tableSize (2 * count) count 8
    let table := (members.zip numbers).foldl
      (fun table (member, number) => putInSlot table member (placeNumber number))
      (Array.replicate size none)
    table.toList.filterMap id

end Provenance.Data
