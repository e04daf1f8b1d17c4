/-!
Contract: finding, cutting and joining pieces of text.

Owns:
- `cutFirst?` and `cutLast?`, which split a text at one separator;
- `split` and `joinWith`, which take a text apart at every separator and put it
  together again;
- `replaceFirst`, `replaceAll`, `dropEnding` and the tests `startsWith`,
  `endsWith`, `contains`.

Does **not** own: which characters are white space, digits or letters, and any
meaning of a separator.

## Why lists of characters

Every scanner of this library works on `List Char`, so that its laws are
inductions on the list.  The fields of the domain types are `String`; the
functions that end in `Text` lift a scanner to them.
-/

set_option autoImplicit false

namespace Provenance.Text

/-- The text before and after the first place where `pattern` occurs. -/
def cutFirst? (pattern : List Char) : List Char → Option (List Char × List Char)
  | [] => if pattern.isEmpty then some ([], []) else none
  | head :: tail =>
    if pattern.isPrefixOf (head :: tail) then
      some ([], (head :: tail).drop pattern.length)
    else
      (cutFirst? pattern tail).map fun (before, after) => (head :: before, after)

/-- The text before and after the last `mark`. -/
def cutLast? (mark : Char) : List Char → Option (List Char × List Char)
  | [] => none
  | head :: tail =>
    match cutLast? mark tail with
    | some (before, after) => some (head :: before, after)
    | none => if head = mark then some ([], tail) else none

/-- What follows the first `pattern`, or the whole text where there is none. -/
def afterFirst (pattern text : List Char) : List Char :=
  match cutFirst? pattern text with
  | some (_, after) => after
  | none => text

/-- The text with its first `old` turned into `new`. -/
def replaceFirst (old new : Char) : List Char → List Char
  | [] => []
  | head :: tail => if head = old then new :: tail else head :: replaceFirst old new tail

/-- The text with every `old` turned into `new`. -/
def replaceAll (old : Char) (new : List Char) (text : List Char) : List Char :=
  text.flatMap fun character => if character = old then new else [character]

/-- The text without `ending` where it ends so, and unchanged otherwise. -/
def dropEnding (ending text : List Char) : List Char :=
  if ending.isSuffixOf text then text.take (text.length - ending.length) else text

/-- The text without the run of `mark` at its end. -/
def dropTrailing (mark : Char) (text : List Char) : List Char :=
  (text.reverse.dropWhile (· = mark)).reverse

/-- The pieces between the marks; a text without a mark is its own only piece. -/
def split (mark : Char) : List Char → List (List Char)
  | [] => [[]]
  | head :: tail =>
    if head = mark then
      [] :: split mark tail
    else
      match split mark tail with
      | [] => [[head]]
      | piece :: rest => (head :: piece) :: rest

/-- The pieces with one `mark` between any two neighbours. -/
def joinWith (mark : Char) : List (List Char) → List Char
  | [] => []
  | [piece] => piece
  | piece :: rest => piece ++ mark :: joinWith mark rest

theorem split_ne_nil (mark : Char) (text : List Char) : split mark text ≠ [] := by
  cases text with
  | nil => simp [split]
  | cons head tail =>
    unfold split
    split
    · simp
    · split <;> simp

/-- Joining the pieces of a text gives the text back. -/
theorem joinWith_split (mark : Char) (text : List Char) :
    joinWith mark (split mark text) = text := by
  induction text with
  | nil => rfl
  | cons head tail inductionHypothesis =>
    unfold split
    by_cases isMark : head = mark
    · rw [if_pos isMark]
      cases pieces : split mark tail with
      | nil => exact absurd pieces (split_ne_nil mark tail)
      | cons piece rest =>
        rw [pieces] at inductionHypothesis
        simp [joinWith, inductionHypothesis, isMark]
    · rw [if_neg isMark]
      cases pieces : split mark tail with
      | nil => exact absurd pieces (split_ne_nil mark tail)
      | cons piece rest =>
        rw [pieces] at inductionHypothesis
        cases rest with
        | nil => simpa [joinWith] using inductionHypothesis
        | cons next others => simpa [joinWith] using inductionHypothesis

/-- Whether `text` begins with `start`. -/
def startsWith (start text : String) : Bool :=
  start.toList.isPrefixOf text.toList

/-- Whether `text` ends with `ending`. -/
def endsWith (ending text : String) : Bool :=
  ending.toList.isSuffixOf text.toList

/-- Whether `mark` occurs in `text`. -/
def contains (mark : Char) (text : String) : Bool :=
  text.toList.contains mark

def splitText (mark : Char) (text : String) : List String :=
  (split mark text.toList).map String.ofList

/-- The lines of a text: the pieces between its line feeds. -/
def lines (text : String) : List String :=
  splitText '\n' text

/-- `count` copies of one character. -/
def repeated (count : Nat) (character : Char) : String :=
  String.ofList (List.replicate count character)

/-- The text filled up with blanks on its right to `width` characters. -/
def padRight (width : Nat) (text : String) : String :=
  text ++ repeated (width - text.length) ' '

/-- The text filled up with blanks on its left to `width` characters. -/
def padLeft (width : Nat) (text : String) : String :=
  repeated (width - text.length) ' ' ++ text

/-- The lower-case hexadecimal digits of a number, at least `width` of them. -/
def hexadecimal (width number : Nat) : List Char :=
  let digits := Nat.toDigits 16 number
  List.replicate (width - digits.length) '0' ++ digits

end Provenance.Text
