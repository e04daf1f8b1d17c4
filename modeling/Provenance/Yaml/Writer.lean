import Provenance.Data.Display
import Provenance.Failure.Shown
import Provenance.Yaml.Character
import Provenance.Yaml.Tag

/-!
Contract: values written as a YAML document in block style.

Owns:
- `Analysis`, which of the three scalar styles a text allows;
- `Pen`, the place on the page that decides about blanks and new lines;
- `write`, the document of a value, and `dump`, which refuses numbers of too many digits.

Does **not** own: reading YAML, and aliases: the values written here share no
parts.

## Why the writer has a pen

Whether a blank, a new line or an indentation is due depends on what stands
before it on the line, not on the value.  The pen knows the column, whether a
blank precedes and whether only indentation does, and every indicator is put
through it.
-/

set_option autoImplicit false

namespace Provenance.Yaml

open Data (Scalar Value)

/-- How a document is written. -/
structure Style where
  /-- Whether characters beyond ASCII may stand as they are. -/
  allowUnicode : Bool
  /-- Whether the entries of a dictionary are ordered by their keys. -/
  sortKeys : Bool
  deriving DecidableEq, Repr

namespace Style

/-- Characters as they are, entries in their order. -/
def records : Style := ⟨true, false⟩

/-- ASCII only, entries ordered by key. -/
def settings : Style := ⟨false, true⟩

end Style

/-- The column from which on a scalar is folded at its next blank. -/
def bestWidth : Nat := 80

def indentStep : Nat := 2

/-- A character beyond ASCII that may stand in a document. -/
def isUnicodeText (character : Char) : Bool :=
  let code := character.toNat
  (code = 0x85 || (0xa0 ≤ code && code ≤ 0xd7ff) || (0xe000 ≤ code && code ≤ 0xfffd) ||
    (0x10000 ≤ code && code < 0x10ffff)) && code ≠ 0xfeff

/-- A character that only a double-quoted scalar can hold. -/
def isSpecial (style : Style) (character : Char) : Bool :=
  let code := character.toNat
  if code = 10 || (32 ≤ code && code ≤ 126) then false
  else !(style.allowUnicode && isUnicodeText character)

/-- What a scalar's text allows. -/
structure Analysis where
  isEmpty : Bool
  isMultiline : Bool
  /-- Whether it may stand without quotes in block style. -/
  allowsPlain : Bool
  allowsSingle : Bool
  deriving DecidableEq, Repr

namespace Analysis

/-- Whether the first character makes a text look like something other than a plain scalar. -/
def hasLeadingIndicator : List Char → Bool
  | [] => false
  | head :: rest =>
    let alone := match rest with
      | next :: _ => isGap next
      | [] => true
    "#,[]\x7b\x7d&*!|>'\"%@\x60".toList.contains head ||
      ((head = '?' || head = ':' || head = '-') && alone)

/-- Whether a `:` before a gap or a `#` after one stands inside, given the character before. -/
def hasInnerIndicator : Char → List Char → Bool
  | _, [] => false
  | before, character :: rest =>
    let alone := match rest with
      | next :: _ => isGap next
      | [] => true
    (character = ':' && alone) || (character = '#' && isGap before) ||
      hasInnerIndicator character rest

/-- Whether some character of the first class stands directly before one of the second. -/
def hasNeighbours (first second : Char → Bool) : List Char → Bool
  | left :: right :: rest =>
    (first left && second right) || hasNeighbours first second (right :: rest)
  | _ => false

def ofText (style : Style) (text : List Char) : Analysis :=
  match text with
  | [] => ⟨true, false, true, true⟩
  | head :: rest =>
    let isSpace := fun character : Char => decide (character = ' ')
    let isEdge := fun character : Char => isSpace character || isBreak character
    let looksLikeMarker := ['-', '-', '-'].isPrefixOf text || ['.', '.', '.'].isPrefixOf text
    let edges := isEdge head || isEdge (text.getLast?.getD head)
    let breakSpace := hasNeighbours isBreak isSpace text
    let spaceBreak := hasNeighbours isSpace isBreak text
    let special := text.any (isSpecial style)
    let breaks := text.any isBreak
    {
      isEmpty := false
      isMultiline := breaks
      allowsPlain :=
        !(looksLikeMarker || hasLeadingIndicator text || hasInnerIndicator head rest || edges ||
          breakSpace || spaceBreak || special || breaks)
      allowsSingle := !(breakSpace || spaceBreak || special)
    }

end Analysis

/-- The three styles of scalars. -/
inductive ScalarStyle where
  | plain
  | single
  | double
  deriving DecidableEq, Repr

/-- The style of a scalar.

`resolves` says that a plain scalar of this text denotes the value. -/
def ScalarStyle.choose (analysis : Analysis) (resolves isSimpleKey : Bool) : ScalarStyle :=
  let spread := analysis.isMultiline
  if resolves && analysis.allowsPlain && !(isSimpleKey && (analysis.isEmpty || spread)) then .plain
  else if analysis.allowsSingle && !(isSimpleKey && spread) then .single
  else .double

/-- The place on the page. -/
structure Pen where
  /-- What has been written, the last character first. -/
  written : List Char
  column : Nat
  /-- Whether the last character is a blank or begins a line. -/
  afterBlank : Bool
  /-- Whether only indentation and block indicators stand on the line. -/
  atIndent : Bool
  /-- Whether the document must be closed by a mark. -/
  isOpenEnded : Bool
  deriving Repr

namespace Pen

def start : Pen := ⟨[], 0, true, true, false⟩

def put (pen : Pen) (text : List Char) : Pen :=
  { pen with written := text.reverse ++ pen.written, column := pen.column + text.length }

/-- The pen at the start of a new line. -/
def lineBreak (pen : Pen) (mark : Char) : Pen :=
  { pen with
    written := mark :: pen.written
    column := 0
    afterBlank := true
    atIndent := true }

/-- The pen at the indentation: on this line if nothing stands beyond it, else on the next. -/
def indentTo (pen : Pen) (indent : Nat) : Pen :=
  let pen :=
    if !pen.atIndent || pen.column > indent || (pen.column == indent && !pen.afterBlank) then
      pen.lineBreak '\n'
    else
      pen
  if pen.column < indent then
    { pen.put (List.replicate (indent - pen.column) ' ') with afterBlank := true }
  else
    pen

def indicator (pen : Pen) (mark : List Char) (needsBlank keepsIndent : Bool) : Pen :=
  let pen := pen.put (if pen.afterBlank || !needsBlank then mark else ' ' :: mark)
  { pen with
    afterBlank := false
    atIndent := pen.atIndent && keepsIndent
    isOpenEnded := false }

def text (pen : Pen) : String :=
  String.ofList pen.written.reverse

end Pen

/-- Runs of a text: characters that are neither blanks nor breaks, blanks, and breaks. -/
inductive Run where
  | word (text : List Char)
  | blanks (count : Nat)
  | breaks (marks : List Char)
  deriving DecidableEq, Repr

def Run.cons (character : Char) (runs : List Run) : List Run :=
  if character = ' ' then
    match runs with
    | .blanks count :: rest => .blanks (count + 1) :: rest
    | _ => .blanks 1 :: runs
  else if isBreak character then
    match runs with
    | .breaks marks :: rest => .breaks (character :: marks) :: rest
    | _ => .breaks [character] :: runs
  else
    match runs with
    | .word text :: rest => .word (character :: text) :: rest
    | _ => .word [character] :: runs

def Run.ofText (text : List Char) : List Run :=
  text.foldr Run.cons []

/-- A plain scalar: folded at a single blank beyond the best width. -/
def writePlainRuns (mayFold : Bool) (indent : Nat) : Pen → List Run → Pen
  | pen, [] => pen
  | pen, run :: rest =>
    let pen :=
      match run with
      | .word text => pen.put text
      | .breaks marks => pen.put marks
      | .blanks count =>
        if count = 1 && pen.column > bestWidth && mayFold then
          { pen.indentTo indent with afterBlank := false, atIndent := false }
        else
          pen.put (List.replicate count ' ')
    writePlainRuns mayFold indent pen rest

/-- A plain scalar after the blank that separates it. -/
def writePlain (pen : Pen) (mayFold : Bool) (indent : Nat) (text : List Char) : Pen :=
  if text.isEmpty then
    pen
  else
    let pen := if pen.afterBlank then pen else pen.put [' ']
    writePlainRuns mayFold indent { pen with afterBlank := false, atIndent := false }
      (Run.ofText text)

/-- Line breaks inside single quotes: a line feed in front is doubled. -/
def writeBreaks (pen : Pen) (indent : Nat) (marks : List Char) : Pen :=
  let pen := if marks.head? = some '\n' then pen.lineBreak '\n' else pen
  (marks.foldl Pen.lineBreak pen).indentTo indent

/-- The runs of a single-quoted scalar; `isFirst` says that none has been written. -/
def writeSingleRuns (mayFold : Bool) (indent : Nat) : Bool → Pen → List Run → Pen
  | _, pen, [] => pen
  | isFirst, pen, run :: rest =>
    let pen :=
      match run with
      | .word text => pen.put (Text.replaceAll '\'' ['\'', '\''] text)
      | .breaks marks => writeBreaks pen indent marks
      | .blanks count =>
        if count = 1 && pen.column > bestWidth && mayFold && !isFirst && !rest.isEmpty then
          pen.indentTo indent
        else
          pen.put (List.replicate count ' ')
    writeSingleRuns mayFold indent false pen rest

/-- A scalar in single quotes: an inner quote is written twice. -/
def writeSingle (pen : Pen) (mayFold : Bool) (indent : Nat) (text : List Char) : Pen :=
  let pen := pen.indicator ['\''] true false
  (writeSingleRuns mayFold indent true pen (Run.ofText text)).indicator ['\''] false false

/-- The letters of the short escapes, by code point. -/
def shortEscapes : List (Nat × Char) :=
  [
    (0, '0'), (7, 'a'), (8, 'b'), (9, 't'), (10, 'n'), (11, 'v'), (12, 'f'), (13, 'r'),
    (27, 'e'), (34, '"'), (92, '\\'), (0x85, 'N'), (0xa0, '_'), (0x2028, 'L'), (0x2029, 'P')
  ]

/-- Whether a character must be escaped in double quotes. -/
def needsEscape (style : Style) (character : Char) : Bool :=
  let code := character.toNat
  code = 34 || code = 92 || code = 0x85 || code = 0x2028 || code = 0x2029 || code = 0xfeff ||
    !((32 ≤ code && code ≤ 126) ||
      (style.allowUnicode &&
        ((0xa0 ≤ code && code ≤ 0xd7ff) || (0xe000 ≤ code && code ≤ 0xfffd))))

/-- The upper-case hexadecimal digits of a number, at least `width` of them. -/
def upperHexadecimal (width number : Nat) : List Char :=
  (Text.hexadecimal width number).map Char.toUpper

def doubleEscape (character : Char) : List Char :=
  let code := character.toNat
  match shortEscapes.lookup code with
  | some letter => ['\\', letter]
  | none =>
    if code ≤ 0xff then '\\' :: 'x' :: upperHexadecimal 2 code
    else if code ≤ 0xffff then '\\' :: 'u' :: upperHexadecimal 4 code
    else '\\' :: 'U' :: upperHexadecimal 8 code

/-- The characters of a double-quoted scalar.

`held` are the characters that stand as they are and are not yet on the page, the
last one first.  Beyond the best width the line is folded at a blank, which then
begins the next line after a backslash, or next to an escape.  Neither the first
nor the last character is a place to fold. -/
def writeDoubleFrom (style : Style) (mayFold : Bool) (indent : Nat) :
    Bool → Pen → List Char → List Char → Pen
  | _, pen, held, [] => pen.put held.reverse
  | isFirst, pen, held, character :: rest =>
    let escapes := needsEscape style character
    let pen := if escapes then (pen.put held.reverse).put (doubleEscape character) else pen
    let held := if escapes then [] else held
    let mayBreak := !isFirst && !rest.isEmpty && (character = ' ' || held.isEmpty)
    if mayBreak && pen.column + held.length > bestWidth + (if escapes then 1 else 0) && mayFold then
      let pen := (pen.put (held.reverse ++ ['\\'])).indentTo indent
      let pen := { pen with afterBlank := false, atIndent := false }
      let next := if escapes then rest.head? else some character
      let pen := if next = some ' ' then pen.put ['\\'] else pen
      writeDoubleFrom style mayFold indent false pen (if escapes then [] else [character]) rest
    else
      writeDoubleFrom style mayFold indent false pen (if escapes then [] else character :: held)
        rest

def writeDouble (style : Style) (pen : Pen) (mayFold : Bool) (indent : Nat) (text : List Char) :
    Pen :=
  let pen := pen.indicator ['"'] true false
  (writeDoubleFrom style mayFold indent true pen [] text).indicator ['"'] false false

/-- The text of a floating-point number; without a point one is put before the exponent. -/
def floatText (value : Number.Binary64) : List Char :=
  match value with
  | .nan => ".nan".toList
  | .infinite true => "-.inf".toList
  | .infinite false => ".inf".toList
  | finite =>
    let text := finite.text.toList
    if text.contains '.' then text
    else
      match Text.cutFirst? ['e'] text with
      | some (before, after) => before ++ ['.', '0', 'e'] ++ after
      | none => text

/-- The text of a scalar, and whether it denotes the scalar when it stands without quotes. -/
def scalarText : Scalar → List Char × Bool
  | .null => ("null".toList, true)
  | .bool true => ("true".toList, true)
  | .bool false => ("false".toList, true)
  | .int value => ((toString value).toList, true)
  | .float value => (floatText value, true)
  | .text value => (value.toList, Tag.ofPlain value.toList == .string)
  | other => (other.display.toList, true)

/-- Where a node stands. -/
inductive Place where
  | root
  | item
  | entry
  deriving DecidableEq, Repr

/-- A scalar at a place; a key on the line of its value is not folded. -/
def writeScalar (style : Style) (pen : Pen) (place : Place) (isSimpleKey : Bool) (indent : Nat)
    (value : Scalar) : Pen :=
  let (text, resolves) := scalarText value
  match ScalarStyle.choose (Analysis.ofText style text) resolves isSimpleKey with
  | .plain =>
    { writePlain pen (!isSimpleKey) indent text with
      isOpenEnded := if place = .root then true else pen.isOpenEnded }
  | .single => writeSingle pen (!isSimpleKey) indent text
  | .double => writeDouble style pen (!isSimpleKey) indent text

/-- The length of the written tag of a key, which counts for whether the key is simple. -/
def keyTagLength : Scalar → Nat
  | .int _ => 5
  | .text _ => 5
  | .null => 6
  | .bool _ => 6
  | .float _ => 7
  | _ => 11

/-- Whether a key can stand on the line of its value: short, not empty and of one line. -/
def isSimpleKey (style : Style) (key : Scalar) : Bool :=
  let (text, _) := scalarText key
  let analysis := Analysis.ofText style text
  keyTagLength key + text.length < 128 && !analysis.isEmpty && !analysis.isMultiline

def writeKey (style : Style) (pen : Pen) (indent : Nat) (key : Scalar) : Pen :=
  let pen := pen.indentTo indent
  if isSimpleKey style key then
    (writeScalar style pen .entry true (indent + indentStep) key).indicator [':'] false false
  else
    let pen := pen.indicator ['?'] true true
    let pen := writeScalar style pen .entry false (indent + indentStep) key
    (pen.indentTo indent).indicator [':'] true true

/-- Whether every key is a text, so that the keys have an order. -/
def areTexts (entries : List (Scalar × Value)) : Bool :=
  entries.all fun (key, _) => key.kind == .text

/-- Whether one key comes before another or is the same. -/
def keyLe (left right : Scalar × Value) : Bool :=
  left.1.display ≤ right.1.display

mutual

/-- The value with the entries of its dictionaries ordered by key. -/
def sorted : Value → Value
  | .list items => .list (sortedItems items)
  | .dict entries =>
    let entries := sortedEntries entries
    .dict (if areTexts entries then entries.mergeSort keyLe else entries)
  | other => other

/-- The items, each ordered inside. -/
def sortedItems : List Value → List Value
  | [] => []
  | item :: rest => sorted item :: sortedItems rest

/-- The entries, the value of each ordered inside. -/
def sortedEntries : List (Scalar × Value) → List (Scalar × Value)
  | [] => []
  | (key, value) :: rest => (key, sorted value) :: sortedEntries rest

end

/-- The indentation inside a collection; the root collection has none. -/
def innerIndent : Option Nat → Nat
  | none => 0
  | some indent => indent + indentStep

mutual

/-- A node at a place, inside the given indentation.  What is no list and no dictionary is written
by its text. -/
def writeNode (style : Style) (pen : Pen) (place : Place) (indent : Option Nat) : Value → Pen
  | .scalar value =>
    writeScalar style pen place false ((indent.getD 0) + indentStep) value
  | .list [] => (pen.indicator ['['] true false).indicator [']'] false false
  | .dict [] => (pen.indicator ['\x7b'] true false).indicator ['\x7d'] false false
  | .list (item :: rest) =>
    let inner :=
      if place = .entry && !pen.atIndent then indent.getD 0 else innerIndent indent
    let pen := (pen.indentTo inner).indicator ['-'] true true
    writeItems style (writeNode style pen .item (some inner) item) inner rest
  | .dict ((key, value) :: rest) =>
    let inner := innerIndent indent
    let pen := writeKey style pen inner key
    writeEntries style (writeNode style pen .entry (some inner) value) inner rest
  | other =>
    writeScalar style pen place false ((indent.getD 0) + indentStep) (.text other.display)

def writeItems (style : Style) (pen : Pen) (indent : Nat) : List Value → Pen
  | [] => pen
  | item :: rest =>
    let pen := (pen.indentTo indent).indicator ['-'] true true
    writeItems style (writeNode style pen .item (some indent) item) indent rest

def writeEntries (style : Style) (pen : Pen) (indent : Nat) : List (Scalar × Value) → Pen
  | [] => pen
  | (key, value) :: rest =>
    let pen := writeKey style pen indent key
    writeEntries style (writeNode style pen .entry (some indent) value) indent rest

end

def write (style : Style) (value : Value) : String :=
  let value := if style.sortKeys then sorted value else value
  let pen := (writeNode style .start .root none value).indentTo 0
  let pen := if pen.isOpenEnded then (pen.indicator ['.', '.', '.'] true false).indentTo 0 else pen
  pen.text

/-- The document of a value, in which no number may have too many digits. -/
def dump [Text.DigitLimit] (style : Style) (value : Value) : Except Failure.Fault String :=
  if value.isTooLong then .error .tooLongToWrite else .ok (write style value)

end Provenance.Yaml
