import Provenance.Text.Blank

/-!
Contract: texts broken into lines of a width.

Owns:
- `cells`, the room that a text takes on a line;
- `divide`, the break of a line between words, and inside words if they may be
  folded;
- `wrapLeft` and `wrapCentred`, whole texts as lines of one width.

Does **not** own: how wide a column is.

## The rule

A word is moved to the next line as a whole where it does not fit any more.  A
word that fits no line is folded over several ones, or cropped with an ellipsis.
White space belongs to the word before it and never moves a word.
-/

set_option autoImplicit false

namespace Provenance.Table

/-- The room that a character takes: control characters take none. -/
def cellWidth (character : Char) : Nat :=
  let code := character.toNat
  if code < 32 || (127 ≤ code && code < 160) then 0 else 1

/-- The room that a text takes on a line. -/
def cells (text : List Char) : Nat :=
  text.foldl (fun taken character => taken + cellWidth character) 0

/-- The beginning of a text that fits a width. -/
def fitting : Nat → List Char → List Char
  | _, [] => []
  | width, character :: rest =>
    if cellWidth character ≤ width then character :: fitting (width - cellWidth character) rest
    else []

def blanks (count : Nat) : List Char :=
  List.replicate count ' '

/-! ## Words -/

/-- Some words with a character in front.  A blank before the first character of a word ends the
word before that. -/
def consWord (character : Char) : List (List Char) → List (List Char)
  | (head :: word) :: rest =>
    if Text.isBlank character && !Text.isBlank head then [character] :: (head :: word) :: rest
    else (character :: head :: word) :: rest
  | others => [character] :: others

/-- The words of a line, each with the white space behind it.  White space at the beginning belongs
to the first word; a line of nothing else has no words. -/
def words (line : List Char) : List (List Char) :=
  match (line.dropWhile Text.isBlank).foldr consWord [] with
  | [] => []
  | first :: rest => (line.takeWhile Text.isBlank ++ first) :: rest

/-- A text in pieces of a width, the last one being what is left; `piece` is the piece so far, its
last character first. -/
def chopFrom (width : Nat) : List Char → List Char → List (List Char) × List Char
  | piece, [] => ([], piece.reverse)
  | piece, character :: rest =>
    if width < cells piece + cellWidth character then
      let (pieces, last) := chopFrom width [character] rest
      (piece.reverse :: pieces, last)
    else
      chopFrom width (character :: piece) rest

/-! ## Lines -/

/-- Lines that are finished, and the one that is being filled with the room it takes. -/
structure Filling where
  finished : List (List Char) := []
  line : List Char := []
  used : Nat := 0

namespace Filling

/-- The line is finished, if there is anything on it. -/
def break_ (filling : Filling) : Filling :=
  if filling.line.isEmpty then filling
  else { finished := filling.finished ++ [filling.line] }

def put (filling : Filling) (text : List Char) : Filling :=
  { filling with line := filling.line ++ text, used := filling.used + cells text }

/-- A word is put on the line or on the next one. -/
def addWord (mayFold : Bool) (width : Nat) (filling : Filling) (word : List Char) : Filling :=
  let length := cells (Text.trimRight word)
  if filling.used + length ≤ width then filling.put word
  else if length ≤ width then filling.break_.put word
  else if mayFold then
    let (pieces, last) := chopFrom width [] word
    let filling := filling.break_
    { finished := filling.finished ++ pieces, line := last, used := cells last }
  else filling.break_.put word

def lines (filling : Filling) : List (List Char) :=
  filling.finished ++ [filling.line]

end Filling

def divide (mayFold : Bool) (width : Nat) (line : List Char) : List (List Char) :=
  match words line with
  | [] => [line]
  | words => (words.foldl (Filling.addWord mayFold width) {}).lines

/-- A line without the white space at its end that goes beyond a width. -/
def dropExcess (width : Nat) (line : List Char) : List Char :=
  let trailing := (line.reverse.takeWhile Text.isBlank).length
  line.take (line.length - min trailing (line.length - width))

/-- Tabs filled up with blanks to the next column that is a multiple of eight, from a column on. -/
def expandTabs : Nat → List Char → List Char
  | _, [] => []
  | column, '\t' :: rest =>
    let count := 8 - column % 8
    blanks count ++ expandTabs (column + count) rest
  | column, character :: rest => character :: expandTabs (column + cellWidth character) rest

/-- The lines of a text, broken to a width. -/
def brokenLines (mayFold : Bool) (width : Nat) (text : List Char) : List (List Char) :=
  (Text.split '\n' text).flatMap fun line =>
    (divide mayFold width (expandTabs 0 line)).map (dropExcess width)

/-- A line on the left, with an ellipsis where it is cropped. -/
def leftLine (width : Nat) (line : List Char) : List Char :=
  if width < cells line then fitting (width - 1) line ++ ['…']
  else line ++ blanks (width - cells line)

def centredLine (width : Nat) (line : List Char) : List Char :=
  let line := fitting width (Text.trimRight line)
  let before := (width - cells line) / 2
  blanks before ++ line ++ blanks (width - before - cells line)

/-- A text as lines on the left whose words are not folded. -/
def wrapLeft (width : Nat) (text : List Char) : List (List Char) :=
  (brokenLines false width text).map (leftLine width)

/-- A text as lines in the middle whose words are folded where they have to be. -/
def wrapCentred (width : Nat) (text : List Char) : List (List Char) :=
  (brokenLines true width text).map (centredLine width)

end Provenance.Table
