import Provenance.Failure.Fault
import Provenance.Text.Blank
import Provenance.Text.Case

/-!
Contract: texts with style tags in square brackets.

Owns:
- `pieces`, the plain and the tagged parts of a markup text;
- `visible`, what is left when the tags are taken out;
- `escape`, the markup of a text that is to be seen as it is.

Does **not** own: the effect of a style, since tables here have no colours.

## Tags

A tag is a bracketed text without another opening bracket whose first character
is a small letter, `#`, `/` or `@`.  An odd number of backslashes before it makes
it plain.  `[/name]` closes the last open tag of that name and `[/]` the last one
of all; a closing tag without an open one is a fault.
-/

set_option autoImplicit false

namespace Provenance.Table.Markup

open Failure (Fault)

/-- Whether a bracketed text that starts so is a tag. -/
def beginsTag (character : Char) : Bool :=
  ('a' ≤ character && character ≤ 'z') || character = '#' || character = '/' || character = '@'

/-- The text of the tag that starts here, and what follows its bracket. -/
def tag? (text : List Char) : Option (List Char × List Char) :=
  match text with
  | '[' :: head :: rest =>
    if beginsTag head then
      let name := rest.takeWhile fun character => character ≠ '[' && character ≠ ']'
      match rest.dropWhile fun character => character ≠ '[' && character ≠ ']' with
      | ']' :: others => some (head :: name, others)
      | _ => none
    else none
  | _ => none

/-- A part of a markup text.  A tag knows its place, which its faults name. -/
inductive Piece where
  | plain (text : List Char)
  | tag (place : Nat) (name : List Char) (parameters : Option (List Char))
  deriving DecidableEq, Repr

/-- The tag of the text between brackets: its parameters follow an equals sign. -/
def Piece.ofTag (place : Nat) (text : List Char) : Piece :=
  match Text.cutFirst? ['='] text with
  | some (name, parameters) => .tag place name (some parameters)
  | none => .tag place text none

/-- What the backslashes before a tag and the tag itself come to. -/
def escaped (place backslashes : Nat) (text : List Char) : List Piece :=
  let kept := Piece.plain (List.replicate (backslashes / 2) '\\')
  if backslashes % 2 = 0 then [kept, .ofTag (place + backslashes) text]
  else [kept, .plain ('[' :: text ++ [']'])]

/-- Pieces with one character more in front of them; `open_` says whether the first one is a run of
characters that may grow. -/
def grow (character : Char) (pieces : List Piece × Bool) : List Piece × Bool :=
  match pieces with
  | (.plain text :: rest, true) => (.plain (character :: text) :: rest, true)
  | (others, _) => (.plain [character] :: others, true)

/-- The pieces of a text from a place on, of which there are at most so many. -/
def piecesWithin : Nat → Nat → List Char → List Piece × Bool
  | 0, _, _ => ([], false)
  | _ + 1, _, [] => ([], false)
  | count + 1, place, character :: rest =>
    let marks := (character :: rest).takeWhile (· = '\\')
    match tag? ((character :: rest).dropWhile (· = '\\')) with
    | some (text, others) =>
      (escaped place marks.length text ++
        (piecesWithin count (place + marks.length + text.length + 2) others).1, false)
    | none => grow character (piecesWithin count (place + 1) rest)

def pieces (text : List Char) : List Piece :=
  (piecesWithin (text.length + 1) 0 text).1

/-- A plain piece as it is seen: a backslash before a bracket is dropped. -/
def unescape : List Char → List Char
  | '\\' :: '[' :: rest => '[' :: unescape rest
  | head :: rest => head :: unescape rest
  | [] => []

/-! ## Names of styles -/

def attribute? (word : String) : Option String :=
  let names : List (String × List String) :=
    [
      ("bold", ["bold", "b"]), ("dim", ["dim", "d"]), ("italic", ["italic", "i"]),
      ("underline", ["underline", "u"]), ("blink", ["blink"]), ("blink2", ["blink2"]),
      ("reverse", ["reverse", "r"]), ("conceal", ["conceal", "c"]), ("strike", ["strike", "s"]),
      ("underline2", ["underline2", "uu"]), ("frame", ["frame"]), ("encircle", ["encircle"]),
      ("overline", ["overline", "o"])
    ]
  (names.find? fun (_, words) => words.contains word).map Prod.fst

/-- The attributes in the order in which a style lists them. -/
def attributeNames : List String :=
  [
    "bold", "dim", "italic", "underline", "blink", "blink2", "reverse", "conceal", "strike",
    "underline2", "frame", "encircle", "overline"
  ]

/-- Whether a word names one of the plain colours. -/
def isColour (word : String) : Bool :=
  let plain := ["black", "red", "green", "yellow", "blue", "magenta", "cyan", "white"]
  word = "default" || plain.contains word || (plain.map ("bright_" ++ ·)).contains word

/-- The words of a text between its white space. -/
def wordsOf (text : List Char) : List String :=
  (((text.map fun character => if Text.isBlank character then ' ' else character)
    |> Text.split ' ').filter (!·.isEmpty)).map String.ofList

/-- A style as far as its name says it. -/
structure StyleName where
  attributes : List (String × Bool) := []
  colour : Option String := none
  background : Option String := none
  link : Option String := none
  deriving DecidableEq, Repr

namespace StyleName

/-- A style with an attribute switched on or off. -/
def setAttribute (style : StyleName) (name : String) (value : Bool) : StyleName :=
  { style with
    attributes := (name, value) :: style.attributes.filter fun (other, _) => other ≠ name }

/-- The style after one more word; `before` is the word that waits for it. -/
def addWord (style : StyleName) (before word : String) : Option (StyleName × String) :=
  let lowered := Text.lower word
  match before with
  | "on" =>
    if isColour lowered then some ({ style with background := some lowered }, "") else none
  | "not" => (attribute? word).map fun name => (style.setAttribute name false, "")
  | "link" => some ({ style with link := some word }, "")
  | _ =>
    if lowered = "on" || lowered = "not" || lowered = "link" then some (style, lowered)
    else
      match attribute? lowered with
      | some name => some (style.setAttribute name true, "")
      | none => if isColour lowered then some ({ style with colour := some lowered }, "") else none

def ofWords? (words : List String) : Option StyleName := do
  let (style, before) ← words.foldlM (fun (style, before) word => addWord style before word) ({}, "")
  if before.isEmpty then some style else none

/-- The name of a style with its parts in a fixed order. -/
def text (style : StyleName) : String :=
  let shown := attributeNames.filterMap fun name =>
    (style.attributes.lookup name).map fun value => if value then name else "not " ++ name
  let parts := shown ++ style.colour.toList ++
    (style.background.map ("on " ++ ·)).toList ++ (style.link.map ("link " ++ ·)).toList
  if parts.isEmpty then "none" else " ".intercalate parts

end StyleName

/-- The name under which a tag is closed: that of its style, or its own in small letters. -/
def styleName (name : List Char) : String :=
  match StyleName.ofWords? (wordsOf name) with
  | some style => style.text
  | none => Text.lower (String.ofList (Text.trim name))

/-! ## Visible texts -/

/-- The open tags without the last one of a name, the last one first. -/
def close? (name : String) : List String → Option (List String)
  | [] => none
  | other :: rest => if other = name then some rest else (close? name rest).map (other :: ·)

def tagText (name : List Char) (parameters : Option (List Char)) : String :=
  String.ofList ('[' :: name ++ ((parameters.map ('=' :: ·)).getD []) ++ [']'])

/-- The open tags after a tag, the last one first. -/
def step (opened : List String) (place : Nat) (name : List Char)
    (parameters : Option (List Char)) : Except Fault (List String) :=
  match name with
  | '/' :: rest =>
    let closing := Text.trim rest
    if closing.isEmpty then
      match opened with
      | _ :: others => .ok others
      | [] =>
        .error (.notMarkup
          ("closing tag '[/]' at position " ++ toString place ++ " has nothing to close"))
    else
      match close? (styleName closing) opened with
      | some others => .ok others
      | none =>
        .error (.notMarkup
          ("closing tag '" ++ tagText name parameters ++ "' at position " ++ toString place ++
            " doesn't match any open tag"))
  | _ => .ok (styleName name :: opened)

/-- The visible text of some pieces, given the open tags. -/
def visiblePieces : List String → List Piece → Except Fault (List Char)
  | _, [] => .ok []
  | opened, .plain text :: rest =>
    match visiblePieces opened rest with
    | .ok others => .ok (unescape text ++ others)
    | .error fault => .error fault
  | opened, .tag place name parameters :: rest =>
    match step opened place name parameters with
    | .ok opened => visiblePieces opened rest
    | .error fault => .error fault

/-- Characters that move the cursor and are left out: bell, backspace, vertical tab, form feed and
carriage return. -/
def isControl (character : Char) : Bool :=
  [7, 8, 11, 12, 13].contains character.toNat

def visible (text : String) : Except Fault (List Char) :=
  (visiblePieces [] (pieces text.toList)).map fun characters =>
    characters.filter fun character => !isControl character

/-! ## Escaping -/

/-- The markup of a text, which has at most so many characters: the backslashes before a tag are
doubled, and one more keeps the tag plain. -/
def escapeWithin : Nat → List Char → List Char
  | 0, _ => []
  | _ + 1, [] => []
  | count + 1, character :: rest =>
    let marks := (character :: rest).takeWhile (· = '\\')
    match tag? ((character :: rest).dropWhile (· = '\\')) with
    | some (text, others) =>
      marks ++ marks ++ '\\' :: '[' :: text ++ ']' :: escapeWithin count others
    | none => character :: escapeWithin count rest

/-- The markup of a text that is to be seen as it is.  A single backslash at the end is doubled. -/
def escape (text : String) : String :=
  let escaped := escapeWithin (text.length + 1) text.toList
  let single := ['\\'].isSuffixOf escaped && !(['\\', '\\'].isSuffixOf escaped)
  String.ofList (if single then escaped ++ ['\\'] else escaped)

end Provenance.Table.Markup
