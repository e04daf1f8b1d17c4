import Provenance.Json.Reader
import Provenance.Text.Utf8
import Provenance.Yaml.Character

/-!
Contract: a YAML text as tokens.

Owns:
- `Token`, with marks for the collections that indentation opens and closes;
- `Scanner`, the place in the text with its indentation and possible keys;
- `Token.scan`, the tokens of a text as far as there are any.

Does **not** own: which sequences of tokens are documents.

## Keys that are known late

A scalar turns out to be a key only at the `:` after it.  So the scanner notes
where a key may have begun, one place for each open bracket, and puts the marks in
front of it afterwards.  A place is forgotten at the end of its line or after 1024
characters.

## What is wrong is wrong at its place

A text may stop being tokens behind a place where it is wrong for another reason.
The first reason counts, so the scanner hands on the tokens that it has found
together with what stopped it.
-/

set_option autoImplicit false

namespace Provenance.Yaml

/-- The complaints about a text.  What is no fault of the text itself has its own kind. -/
inductive Complaint where
  | malformed (reason : String)
  /-- The text denotes a value that does not exist. -/
  | badValue (reason : String)
  /-- The text denotes a number beyond what is representable. -/
  | overflow (reason : String)
  | unknownWord (word : String)
  /-- A text is empty where a character is needed. -/
  | emptyText
  | noMoment
  | momentOfCollection
  /-- A collection stands for a scalar that it holds itself. -/
  | endless
  deriving DecidableEq, Repr

/-- Whether a scalar stands without quotes. -/
inductive ScalarForm where
  | plain
  | quoted
  deriving DecidableEq, Repr

/-- The pieces of a YAML text. -/
inductive Token where
  | streamEnd
  | versionDirective (major : Nat)
  | tagDirective (handle start : String)
  | otherDirective
  | documentStart
  | documentEnd
  | blockSequenceStart
  | blockMappingStart
  | blockEnd
  | flowSequenceStart
  | flowSequenceEnd
  | flowMappingStart
  | flowMappingEnd
  | flowEntry
  | blockEntry
  | key
  | value
  | aliased (name : String)
  | anchor (name : String)
  | tag (handle : Option String) (suffix : String)
  | scalar (form : ScalarForm) (text : List Char)
  deriving DecidableEq, Repr

/-- A place in a text. -/
structure Cursor where
  rest : List Char
  index : Nat := 0
  line : Nat := 0
  column : Nat := 0
  deriving Repr

namespace Cursor

/-- The character at a distance; beyond the end it is the character zero. -/
def peek (cursor : Cursor) (distance : Nat) : Char :=
  cursor.rest[distance]?.getD '\x00'

/-- The place after the next character.  A byte order mark takes no column. -/
def forward (cursor : Cursor) : Cursor :=
  match cursor.rest with
  | [] => cursor
  | character :: rest =>
    if isBreak character then ⟨rest, cursor.index + 1, cursor.line + 1, 0⟩
    else if character.toNat = 0xfeff then
      ⟨rest, cursor.index + 1, cursor.line, cursor.column⟩
    else ⟨rest, cursor.index + 1, cursor.line, cursor.column + 1⟩

def forwardBy : Nat → Cursor → Cursor
  | 0, cursor => cursor
  | count + 1, cursor => forwardBy count cursor.forward

/-- The characters that pass, and the place after them. -/
def takeWhile (allowed : Char → Bool) (cursor : Cursor) : List Char × Cursor :=
  let taken := cursor.rest.takeWhile allowed
  (taken, forwardBy taken.length cursor)

def skipWhile (allowed : Char → Bool) (cursor : Cursor) : Cursor :=
  (cursor.takeWhile allowed).2

def atLineEnd (cursor : Cursor) : Bool :=
  isLineEnd (cursor.peek 0)

def atMarker (cursor : Cursor) : Bool :=
  (['-', '-', '-'].isPrefixOf cursor.rest || ['.', '.', '.'].isPrefixOf cursor.rest) &&
    isGap (cursor.peek 3)

/-- A line break as it counts in a scalar, and the place after it. -/
def lineBreak? (cursor : Cursor) : Option (Char × Cursor) :=
  match cursor.rest with
  | character :: _ =>
    if isBreak character then
      let mark := if character.toNat = 0x85 then '\n' else character
      some (mark, cursor.forward)
    else none
  | [] => none

/-- The place after a comment, if one stands here. -/
def skipComment (cursor : Cursor) : Cursor :=
  if cursor.peek 0 = '#' then cursor.skipWhile fun c => !isLineEnd c else cursor

/-- The place on the next line; only blanks and a comment may stand before it. -/
def skipLine (cursor : Cursor) : Except Complaint Cursor :=
  let cursor := (cursor.skipWhile (· = ' ')).skipComment
  if cursor.atLineEnd then .ok ((cursor.lineBreak?.map Prod.snd).getD cursor)
  else .error (.malformed "expected a comment or a line break")

end Cursor

/-! ## Scalars -/

/-- The line breaks between two lines as they count in a scalar: one break is a blank. -/
def foldBreaks (first : Char) (others : List Char) : List Char :=
  if first ≠ '\n' then first :: others
  else if others.isEmpty then [' ']
  else others

def readHex? (count : Nat) (cursor : Cursor) : Option (Nat × Cursor) :=
  let digits := cursor.rest.take count
  if digits.length < count then none
  else (digits.mapM Json.hexDigit?).map fun values =>
    (Text.positional 16 values, cursor.forwardBy count)

/-- The characters of the short escapes, as code points. -/
def escapedCodes : List (Char × Nat) :=
  [
    ('0', 0), ('a', 7), ('b', 8), ('t', 9), ('\t', 9), ('n', 10), ('v', 11), ('f', 12),
    ('r', 13), ('e', 27), (' ', 32), ('"', 34), ('\\', 92), ('/', 47), ('N', 0x85),
    ('_', 0xa0), ('L', 0x2028), ('P', 0x2029)
  ]

def escapeLengths : List (Char × Nat) :=
  [('x', 2), ('u', 4), ('U', 8)]

/-- The character of an escaped code; half of a pair is shown as a replacement character. -/
def escapedCharacter (code : Nat) : Except Complaint Char :=
  if code < 0x110000 then .ok (Json.unitCharacter code)
  else if code < 0x80000000 then .error (.badValue "chr() arg not in range(0x110000)")
  else .error (.overflow "Python int too large to convert to C int")

/-- The breaks of further empty lines inside quotes, and the place after blanks. -/
def quotedBreaks : Nat → Cursor → Except Complaint (List Char × Cursor)
  | 0, cursor => .ok ([], cursor)
  | fuel + 1, cursor =>
    if cursor.atMarker then .error (.malformed "found unexpected document separator")
    else
      let cursor := cursor.skipWhile fun c => c = ' ' || c = '\t'
      match cursor.lineBreak? with
      | some (mark, cursor) => do
        let (others, cursor) ← quotedBreaks fuel cursor
        pure (mark :: others, cursor)
      | none => .ok ([], cursor)

/-- The characters of a scalar in double quotes, after the opening one. -/
def readDouble : Nat → Cursor → Except Complaint (List Char × Cursor)
  | 0, _ => .error (.malformed "found unexpected end of stream")
  | fuel + 1, cursor =>
    let character := cursor.peek 0
    let onward (characters : List Char) (cursor : Cursor) :
        Except Complaint (List Char × Cursor) := do
      let (others, cursor) ← readDouble fuel cursor
      pure (characters ++ others, cursor)
    if character = '"' then .ok ([], cursor.forward)
    else if character = '\\' then
      let letter := cursor.peek 1
      let after := cursor.forwardBy 2
      match escapedCodes.lookup letter with
      | some code => onward [Char.ofNat code] after
      | none =>
        match escapeLengths.lookup letter with
        | some count =>
          match readHex? count after with
          | none => .error (.malformed "expected escape sequence of hexadecimal numbers")
          | some (code, after) => do
            let escaped ← escapedCharacter code
            onward [escaped] after
        | none =>
          if isBreak letter then do
            let (breaks, after) ← quotedBreaks (after.rest.length + 1) after
            onward breaks after
          else .error (.malformed "found unknown escape character")
    else if isGap character then do
      let (blanks, after) := cursor.takeWhile fun c => c = ' ' || c = '\t'
      match after.lineBreak? with
      | some (mark, after) =>
        let (breaks, after) ← quotedBreaks (after.rest.length + 1) after
        onward (foldBreaks mark breaks) after
      | none =>
        if after.rest.isEmpty then .error (.malformed "found unexpected end of stream")
        else onward blanks after
    else onward [character] cursor.forward

/-- The characters of a scalar in single quotes, after the opening one. -/
def readSingle : Nat → Cursor → Except Complaint (List Char × Cursor)
  | 0, _ => .error (.malformed "found unexpected end of stream")
  | fuel + 1, cursor =>
    let character := cursor.peek 0
    let onward (characters : List Char) (cursor : Cursor) :
        Except Complaint (List Char × Cursor) := do
      let (others, cursor) ← readSingle fuel cursor
      pure (characters ++ others, cursor)
    if character = '\'' then
      if cursor.peek 1 = '\'' then onward ['\''] (cursor.forwardBy 2)
      else .ok ([], cursor.forward)
    else if isGap character then do
      let (blanks, after) := cursor.takeWhile fun c => c = ' ' || c = '\t'
      match after.lineBreak? with
      | some (mark, after) =>
        let (breaks, after) ← quotedBreaks (after.rest.length + 1) after
        onward (foldBreaks mark breaks) after
      | none =>
        if after.rest.isEmpty then .error (.malformed "found unexpected end of stream")
        else onward blanks after
    else onward [character] cursor.forward

/-- The characters of a plain scalar up to the next gap, `:` before a gap, or bracket. -/
def plainWord (inFlow : Bool) : List Char → List Char
  | [] => []
  | character :: rest =>
    let next := rest.head?.getD '\x00'
    if isGap character then []
    else if character = ':' && (isGap next || (inFlow && isAmong ",[]\x7b\x7d" next)) then []
    else if inFlow && isAmong ",?[]\x7b\x7d" character then []
    else character :: plainWord inFlow rest

/-- The breaks of further lines in a plain scalar; none before a document's mark. -/
def plainBreaks : Nat → Cursor → Option (List Char) × Cursor
  | 0, cursor => (some [], cursor)
  | fuel + 1, cursor =>
    let cursor := cursor.skipWhile (· = ' ')
    match cursor.lineBreak? with
    | none => (some [], cursor)
    | some (mark, after) =>
      if after.atMarker then (none, after)
      else
        let (others, after) := plainBreaks fuel after
        (others.map (mark :: ·), after)

/-- What lies between two words of a plain scalar: its characters, and whether a line ended. -/
structure PlainGap where
  text : List Char
  endsLine : Bool
  after : Cursor

/-- The gap after a word of a plain scalar; it is empty where the scalar ends. -/
def plainGap (cursor : Cursor) : PlainGap :=
  let (blanks, after) := cursor.takeWhile (· = ' ')
  match after.lineBreak? with
  | none => ⟨blanks, false, after⟩
  | some (mark, after) =>
    if after.atMarker then ⟨[], true, after⟩
    else
      match plainBreaks (after.rest.length + 1) after with
      | (none, after) => ⟨[], true, after⟩
      | (some others, after) => ⟨foldBreaks mark others, true, after⟩

/-- A plain scalar: its characters, whether the last gap ended a line, and the place after it. -/
def readPlain (inFlow : Bool) (indent : Int) :
    Nat → Bool → List Char → Cursor → List Char × Bool × Cursor
  | 0, endsLine, _, cursor => ([], endsLine, cursor)
  | fuel + 1, endsLine, gap, cursor =>
    let word := if cursor.peek 0 = '#' then [] else plainWord inFlow cursor.rest
    if word.isEmpty then ([], endsLine, cursor)
    else
      let next := plainGap (cursor.forwardBy word.length)
      if next.text.isEmpty || next.after.peek 0 = '#' ||
          (!inFlow && (next.after.column : Int) < indent) then
        (gap ++ word, next.endsLine, next.after)
      else
        let (others, endsLine, cursor) := readPlain inFlow indent fuel next.endsLine next.text next.after
        (gap ++ word ++ others, endsLine, cursor)

/-- What becomes of the line breaks at the end of a block scalar. -/
inductive Chomping where
  | strip
  | clip
  | keep
  deriving DecidableEq, Repr

/-- The chomping and the indentation in the header of a block scalar. -/
def blockHeader (cursor : Cursor) : Except Complaint (Chomping × Option Nat × Cursor) := do
  let chomping? (character : Char) : Option Chomping :=
    if character = '+' then some .keep else if character = '-' then some .strip else none
  let digit? (character : Char) : Option Nat :=
    if Json.isDigit character then some (character.toNat - 48) else none
  let (chomping, indent, cursor) :=
    match chomping? (cursor.peek 0) with
    | some chomping =>
      match digit? (cursor.peek 1) with
      | some digit => (chomping, some digit, cursor.forwardBy 2)
      | none => (chomping, none, cursor.forward)
    | none =>
      match digit? (cursor.peek 0) with
      | some digit =>
        match chomping? (cursor.peek 1) with
        | some chomping => (chomping, some digit, cursor.forwardBy 2)
        | none => (.clip, some digit, cursor.forward)
      | none => (.clip, none, cursor)
  if indent = some 0 then
    throw (.malformed "expected indentation indicator in the range 1-9, but found 0")
  if !isBlankOrEnd (cursor.peek 0) then
    throw (.malformed "expected chomping or indentation indicators")
  pure (chomping, indent, cursor)

/-- The empty lines in front of a block scalar, and the greatest column of their blanks. -/
def blockIndentation : Nat → Nat → Cursor → List Char × Nat × Cursor
  | 0, deepest, cursor => ([], deepest, cursor)
  | fuel + 1, deepest, cursor =>
    let cursor := cursor.skipWhile (· = ' ')
    let deepest := max deepest cursor.column
    match cursor.lineBreak? with
    | none => ([], deepest, cursor)
    | some (mark, after) =>
      let (others, deepest, after) := blockIndentation fuel deepest after
      (mark :: others, deepest, after)

/-- The place after blanks, up to a column. -/
def skipToColumn (column : Nat) (cursor : Cursor) : Cursor :=
  let blanks := (cursor.rest.takeWhile (· = ' ')).length
  cursor.forwardBy (min blanks (column - cursor.column))

def blockBreaks (indent : Nat) : Nat → Cursor → List Char × Cursor
  | 0, cursor => ([], cursor)
  | fuel + 1, cursor =>
    let cursor := skipToColumn indent cursor
    match cursor.lineBreak? with
    | none => ([], cursor)
    | some (mark, after) =>
      let (others, after) := blockBreaks indent fuel after
      (mark :: others, after)

/-- What a block scalar's lines leave: the characters, the last break, and the breaks after it. -/
structure BlockLines where
  text : List Char
  lastBreak : List Char
  breaks : List Char
  after : Cursor

/-- The lines of a block scalar from a place on, given the empty lines before it. -/
def blockLines (isFolded : Bool) (indent : Nat) : Nat → List Char → Cursor → BlockLines
  | 0, breaks, cursor => ⟨[], [], breaks, cursor⟩
  | fuel + 1, breaks, cursor =>
    if cursor.column = indent && !cursor.rest.isEmpty then
      let startsBlank (cursor : Cursor) : Bool := cursor.peek 0 = ' ' || cursor.peek 0 = '\t'
      let (line, after) := cursor.takeWhile fun c => !isLineEnd c
      let (lineBreak, after) :=
        match after.lineBreak? with
        | some (mark, after) => ([mark], after)
        | none => ([], after)
      let (nextBreaks, after) := blockBreaks indent (after.rest.length + 1) after
      if after.column = indent && !after.rest.isEmpty then
        let joint :=
          if isFolded && lineBreak = ['\n'] && !startsBlank cursor && !startsBlank after then
            (if nextBreaks.isEmpty then [' '] else [])
          else lineBreak
        let others := blockLines isFolded indent fuel nextBreaks after
        { others with text := breaks ++ line ++ joint ++ others.text }
      else
        ⟨breaks ++ line, lineBreak, nextBreaks, after⟩
    else
      ⟨[], [], breaks, cursor⟩

/-- A block scalar from its indicator on, inside an indentation. -/
def readBlock (isFolded : Bool) (indent : Int) (cursor : Cursor) :
    Except Complaint (List Char × Cursor) := do
  let (chomping, increment, cursor) ← blockHeader cursor.forward
  let cursor ← cursor.skipLine
  let least := (max (indent + 1) 1).toNat
  let fuel := cursor.rest.length + 1
  let (breaks, column, cursor) :=
    match increment with
    | none =>
      let (breaks, deepest, cursor) := blockIndentation fuel 0 cursor
      (breaks, max least deepest, cursor)
    | some increment =>
      let column := least + increment - 1
      let (breaks, cursor) := blockBreaks column fuel cursor
      (breaks, column, cursor)
  let lines := blockLines isFolded column fuel breaks cursor
  let tail :=
    match chomping with
    | .strip => []
    | .clip => lines.lastBreak
    | .keep => lines.lastBreak ++ lines.breaks
  pure (lines.text ++ tail, lines.after)

/-! ## Names, tags and directives -/

/-- The name of an anchor or an alias, after its indicator. -/
def readName (cursor : Cursor) : Except Complaint (String × Cursor) :=
  let (name, after) := cursor.forward.takeWhile isNameCharacter
  if name.isEmpty then .error (.malformed "expected alphabetic or numeric character")
  else if isGap (after.peek 0) || isAmong "?:,]\x7d%@\x60" (after.peek 0) then
    .ok (String.ofList name, after)
  else .error (.malformed "expected alphabetic or numeric character")

/-- The octets of a run of escapes in a tag. -/
def tagOctets : Nat → Cursor → Except Complaint (List UInt8 × Cursor)
  | 0, cursor => .ok ([], cursor)
  | fuel + 1, cursor =>
    if cursor.peek 0 = '%' then
      match readHex? 2 cursor.forward with
      | none => .error (.malformed "expected URI escape sequence of 2 hexadecimal numbers")
      | some (octet, cursor) => do
        let (others, cursor) ← tagOctets fuel cursor
        pure (UInt8.ofNat octet :: others, cursor)
    else .ok ([], cursor)

/-- The characters of a tag, escapes resolved. -/
def tagCharacters : Nat → Cursor → Except Complaint (List Char × Cursor)
  | 0, cursor => .ok ([], cursor)
  | fuel + 1, cursor =>
    let character := cursor.peek 0
    if character = '%' then do
      let (octets, cursor) ← tagOctets (cursor.rest.length + 1) cursor
      match Text.Utf8.decodeStrict octets with
      | .error error => .error (.malformed error.message)
      | .ok characters =>
        let (others, cursor) ← tagCharacters fuel cursor
        pure (characters ++ others, cursor)
    else if isTagCharacter character then do
      let (others, cursor) ← tagCharacters fuel cursor.forward
      pure (character :: others, cursor)
    else .ok ([], cursor)

/-- The text of a tag, which is not empty. -/
def readTagText (cursor : Cursor) : Except Complaint (String × Cursor) := do
  let (characters, cursor) ← tagCharacters (cursor.rest.length + 1) cursor
  if characters.isEmpty then throw (.malformed "expected URI")
  pure (String.ofList characters, cursor)

/-- The handle of a tag: `!`, `!!`, or a name between two `!`. -/
def readHandle (cursor : Cursor) : Except Complaint (String × Cursor) :=
  if cursor.peek 0 ≠ '!' then .error (.malformed "expected '!'")
  else if cursor.peek 1 = ' ' then .ok ("!", cursor.forward)
  else
    let (name, after) := cursor.forward.takeWhile isNameCharacter
    if after.peek 0 = '!' then .ok (String.ofList ('!' :: name ++ ['!']), after.forward)
    else .error (.malformed "expected '!'")

/-- A tag: in angle brackets, alone, or with a handle. -/
def readTag (cursor : Cursor) : Except Complaint (Token × Cursor) := do
  let next := cursor.peek 1
  let (token, after) ←
    if next = '<' then
      let (suffix, after) ← readTagText (cursor.forwardBy 2)
      if after.peek 0 ≠ '>' then throw (.malformed "expected '>'")
      pure (Token.tag none suffix, after.forward)
    else if isGap next then
      pure (Token.tag none "!", cursor.forward)
    else
      let word := (cursor.rest.drop 1).takeWhile fun c => !isBlankOrEnd c
      if word.contains '!' then
        let (handle, after) ← readHandle cursor
        let (suffix, after) ← readTagText after
        pure (Token.tag (some handle) suffix, after)
      else
        let (suffix, after) ← readTagText cursor.forward
        pure (Token.tag (some "!") suffix, after)
  if !isBlankOrEnd (after.peek 0) then throw (.malformed "expected ' '")
  pure (token, after)

def readVersionNumber (cursor : Cursor) : Except Complaint (Nat × Cursor) :=
  let (digits, after) := cursor.takeWhile Json.isDigit
  if digits.isEmpty then .error (.malformed "expected a digit")
  else .ok (Json.digitsValue digits, after)

def readDirective (cursor : Cursor) : Except Complaint (Token × Cursor) := do
  let (name, after) := cursor.forward.takeWhile isNameCharacter
  if name.isEmpty || !isBlankOrEnd (after.peek 0) then
    throw (.malformed "expected alphabetic or numeric character")
  let (token, after) ←
    if name = "YAML".toList then
      let (major, after) ← readVersionNumber (after.skipWhile (· = ' '))
      if after.peek 0 ≠ '.' then throw (.malformed "expected a digit or '.'")
      let (_, after) ← readVersionNumber after.forward
      if !isBlankOrEnd (after.peek 0) then throw (.malformed "expected a digit or ' '")
      pure (Token.versionDirective major, after)
    else if name = "TAG".toList then
      let (handle, after) ← readHandle (after.skipWhile (· = ' '))
      if after.peek 0 ≠ ' ' then throw (.malformed "expected ' '")
      let (start, after) ← readTagText (after.skipWhile (· = ' '))
      if !isBlankOrEnd (after.peek 0) then throw (.malformed "expected ' '")
      pure (Token.tagDirective handle start, after)
    else
      pure (Token.otherDirective, after.skipWhile fun c => !isLineEnd c)
  let after ← after.skipLine
  pure (token, after)

/-! ## The scanner -/

/-- A place where a key may have begun. -/
structure PossibleKey where
  tokensBefore : Nat
  isRequired : Bool
  index : Nat
  line : Nat
  column : Nat
  deriving Repr

/-- A place in a text with all that decides about the tokens that follow. -/
structure Scanner where
  cursor : Cursor
  /-- The tokens so far, the last one first. -/
  tokens : List Token := []
  flowLevel : Nat := 0
  /-- The column of the innermost block, and of those around it. -/
  indent : Int := -1
  indents : List Int := []
  allowsKey : Bool := true
  /-- The possible keys by the number of open brackets. -/
  possibleKeys : List (Nat × PossibleKey) := []
  deriving Repr

namespace Scanner

def emit (scanner : Scanner) (token : Token) : Scanner :=
  { scanner with tokens := token :: scanner.tokens }

def at_ (scanner : Scanner) (cursor : Cursor) : Scanner :=
  { scanner with cursor := cursor }

def allow (scanner : Scanner) (allowsKey : Bool) : Scanner :=
  { scanner with allowsKey := allowsKey }

/-- Puts a token in front of the last so many tokens. -/
def insertBefore (count : Nat) (token : Token) (tokens : List Token) : List Token :=
  tokens.take count ++ token :: tokens.drop count

/-- Forgets the possible key of the innermost bracket; a required one may not be forgotten. -/
def dropKey (scanner : Scanner) : Except Complaint Scanner :=
  match scanner.possibleKeys.lookup scanner.flowLevel with
  | some key =>
    if key.isRequired then .error (.malformed "could not find expected ':'")
    else .ok { scanner with
      possibleKeys := scanner.possibleKeys.filter fun (level, _) => level ≠ scanner.flowLevel }
  | none => .ok scanner

/-- Whether a possible key is on an earlier line or too far back. -/
def isStale (scanner : Scanner) (key : PossibleKey) : Bool :=
  key.line ≠ scanner.cursor.line || 1024 < scanner.cursor.index - key.index

def dropStale (scanner : Scanner) : Except Complaint Scanner :=
  if scanner.possibleKeys.any fun (_, key) => scanner.isStale key && key.isRequired then
    .error (.malformed "could not find expected ':'")
  else
    .ok { scanner with
      possibleKeys := scanner.possibleKeys.filter fun (_, key) => !scanner.isStale key }

def noteKey (scanner : Scanner) : Except Complaint Scanner :=
  if scanner.allowsKey then do
    let isRequired := scanner.flowLevel = 0 && scanner.indent = scanner.cursor.column
    let scanner ← scanner.dropKey
    let key : PossibleKey :=
      ⟨scanner.tokens.length, isRequired, scanner.cursor.index, scanner.cursor.line,
        scanner.cursor.column⟩
    pure { scanner with possibleKeys := (scanner.flowLevel, key) :: scanner.possibleKeys }
  else
    .ok scanner

/-- Closes the blocks whose column lies beyond the given one. -/
def unwindTo (column : Int) : List Int → Scanner → Scanner
  | [], scanner => scanner
  | outer :: rest, scanner =>
    if scanner.indent > column then
      unwindTo column rest
        { scanner.emit .blockEnd with indent := outer, indents := rest }
    else scanner

/-- Closes the blocks that end at a column; inside brackets columns do not count. -/
def unwind (scanner : Scanner) (column : Int) : Scanner :=
  if scanner.flowLevel = 0 then unwindTo column scanner.indents scanner else scanner

/-- Opens a block at a column if that lies beyond the innermost one. -/
def addIndent? (scanner : Scanner) (column : Int) : Option Scanner :=
  if scanner.indent < column then
    some { scanner with indents := scanner.indent :: scanner.indents, indent := column }
  else none

/-- The scanner at the next token: blanks, comments and line ends are passed over. -/
def toNextToken : Nat → Scanner → Scanner
  | 0, scanner => scanner
  | fuel + 1, scanner =>
    let cursor :=
      if scanner.cursor.index = 0 && (scanner.cursor.peek 0).toNat = 0xfeff then
        scanner.cursor.forward
      else scanner.cursor
    let cursor := (cursor.skipWhile (· = ' ')).skipComment
    match cursor.lineBreak? with
    | some (_, cursor) =>
      toNextToken fuel
        ((scanner.at_ cursor).allow (scanner.allowsKey || scanner.flowLevel = 0))
    | none => scanner.at_ cursor

def endStream (scanner : Scanner) : Except Complaint Scanner := do
  let scanner ← (scanner.unwind (-1)).dropKey
  pure (scanner.emit .streamEnd)

def directive (scanner : Scanner) : Except Complaint Scanner := do
  let scanner ← (scanner.unwind (-1)).dropKey
  let (token, cursor) ← readDirective scanner.cursor
  pure (((scanner.at_ cursor).allow false).emit token)

def marker (scanner : Scanner) (token : Token) : Except Complaint Scanner := do
  let scanner ← (scanner.unwind (-1)).dropKey
  pure (((scanner.at_ (scanner.cursor.forwardBy 3)).allow false).emit token)

def openFlow (scanner : Scanner) (token : Token) : Except Complaint Scanner := do
  let scanner ← scanner.noteKey
  pure { ((scanner.at_ scanner.cursor.forward).allow true).emit token with
    flowLevel := scanner.flowLevel + 1 }

def closeFlow (scanner : Scanner) (token : Token) : Except Complaint Scanner := do
  let scanner ← scanner.dropKey
  if scanner.flowLevel = 0 then throw (.malformed "expected the node content")
  pure { ((scanner.at_ scanner.cursor.forward).allow false).emit token with
    flowLevel := scanner.flowLevel - 1 }

def flowEntry (scanner : Scanner) : Except Complaint Scanner := do
  let scanner ← (scanner.allow true).dropKey
  pure ((scanner.at_ scanner.cursor.forward).emit .flowEntry)

/-- The `-` of an item. -/
def blockEntry (scanner : Scanner) : Except Complaint Scanner := do
  if scanner.flowLevel = 0 && !scanner.allowsKey then
    throw (.malformed "sequence entries are not allowed here")
  let scanner :=
    if scanner.flowLevel = 0 then
      match scanner.addIndent? scanner.cursor.column with
      | some scanner => scanner.emit .blockSequenceStart
      | none => scanner
    else scanner
  let scanner ← (scanner.allow true).dropKey
  pure ((scanner.at_ scanner.cursor.forward).emit .blockEntry)

/-- The `?` of a key. -/
def explicitKey (scanner : Scanner) : Except Complaint Scanner := do
  if scanner.flowLevel = 0 && !scanner.allowsKey then
    throw (.malformed "mapping keys are not allowed here")
  let scanner :=
    if scanner.flowLevel = 0 then
      match scanner.addIndent? scanner.cursor.column with
      | some scanner => scanner.emit .blockMappingStart
      | none => scanner
    else scanner
  let scanner ← (scanner.allow (scanner.flowLevel = 0)).dropKey
  pure ((scanner.at_ scanner.cursor.forward).emit .key)

/-- The `:` of a value.  A possible key in front of it becomes one. -/
def value (scanner : Scanner) : Except Complaint Scanner := do
  match scanner.possibleKeys.lookup scanner.flowLevel with
  | some key =>
    let after := scanner.tokens.length - key.tokensBefore
    let scanner :=
      { scanner with
        tokens := insertBefore after .key scanner.tokens
        possibleKeys := scanner.possibleKeys.filter fun (level, _) => level ≠ scanner.flowLevel }
    let scanner :=
      if scanner.flowLevel = 0 then
        match scanner.addIndent? key.column with
        | some scanner =>
          { scanner with tokens := insertBefore (after + 1) .blockMappingStart scanner.tokens }
        | none => scanner
      else scanner
    pure (((scanner.at_ scanner.cursor.forward).allow false).emit .value)
  | none =>
    if scanner.flowLevel = 0 && !scanner.allowsKey then
      throw (.malformed "mapping values are not allowed here")
    let scanner :=
      if scanner.flowLevel = 0 then
        match scanner.addIndent? scanner.cursor.column with
        | some scanner => scanner.emit .blockMappingStart
        | none => scanner
      else scanner
    let scanner ← (scanner.allow (scanner.flowLevel = 0)).dropKey
    pure ((scanner.at_ scanner.cursor.forward).emit .value)

def named (scanner : Scanner) (make : String → Token) : Except Complaint Scanner := do
  let scanner ← scanner.noteKey
  let (name, cursor) ← readName scanner.cursor
  pure (((scanner.at_ cursor).allow false).emit (make name))

def tagged (scanner : Scanner) : Except Complaint Scanner := do
  let scanner ← scanner.noteKey
  let (token, cursor) ← readTag scanner.cursor
  pure (((scanner.at_ cursor).allow false).emit token)

def blockScalar (scanner : Scanner) (isFolded : Bool) : Except Complaint Scanner := do
  let scanner ← (scanner.allow true).dropKey
  let (text, cursor) ← readBlock isFolded scanner.indent scanner.cursor
  pure ((scanner.at_ cursor).emit (.scalar .quoted text))

def quotedScalar (scanner : Scanner) (isDouble : Bool) : Except Complaint Scanner := do
  let scanner ← scanner.noteKey
  let start := scanner.cursor.forward
  let fuel := start.rest.length + 1
  let (text, cursor) ← if isDouble then readDouble fuel start else readSingle fuel start
  pure (((scanner.at_ cursor).allow false).emit (.scalar .quoted text))

def plainScalar (scanner : Scanner) : Except Complaint Scanner := do
  let scanner ← scanner.noteKey
  let (text, endsLine, cursor) :=
    readPlain (scanner.flowLevel ≠ 0) (scanner.indent + 1) (scanner.cursor.rest.length + 1) false
      [] scanner.cursor
  pure (((scanner.at_ cursor).allow endsLine).emit (.scalar .plain text))

def startsPlain (scanner : Scanner) : Bool :=
  let character := scanner.cursor.peek 0
  let inFlow := scanner.flowLevel ≠ 0
  (!isGap character && !isAmong "-?:,[]\x7b\x7d#&*!|>'\"%@\x60" character) ||
    (!isGap (scanner.cursor.peek 1) &&
      (character = '-' || (!inFlow && (character = '?' || character = ':'))))

/-- One step: the next token with the marks that belong before it. -/
def step (scanner : Scanner) : Except Complaint Scanner := do
  let scanner ← (toNextToken (scanner.cursor.rest.length + 1) scanner).dropStale
  let scanner := scanner.unwind scanner.cursor.column
  let cursor := scanner.cursor
  let character := cursor.peek 0
  let alone := isGap (cursor.peek 1)
  let inFlow := scanner.flowLevel ≠ 0
  let atStart := cursor.column = 0
  if cursor.rest.isEmpty then scanner.endStream
  else if character = '%' && atStart then scanner.directive
  else if character = '-' && atStart && cursor.atMarker then scanner.marker .documentStart
  else if character = '.' && atStart && cursor.atMarker then scanner.marker .documentEnd
  else if character = '[' then scanner.openFlow .flowSequenceStart
  else if character = '\x7b' then scanner.openFlow .flowMappingStart
  else if character = ']' then scanner.closeFlow .flowSequenceEnd
  else if character = '\x7d' then scanner.closeFlow .flowMappingEnd
  else if character = ',' then scanner.flowEntry
  else if character = '-' && alone then scanner.blockEntry
  else if character = '?' && (inFlow || alone) then scanner.explicitKey
  else if character = ':' && (inFlow || alone) then scanner.value
  else if character = '*' then scanner.named .aliased
  else if character = '&' then scanner.named .anchor
  else if character = '!' then scanner.tagged
  else if character = '|' && !inFlow then scanner.blockScalar false
  else if character = '>' && !inFlow then scanner.blockScalar true
  else if character = '\'' then scanner.quotedScalar false
  else if character = '"' then scanner.quotedScalar true
  else if scanner.startsPlain then scanner.plainScalar
  else throw (.malformed "found a character that cannot start any token")

/-- Steps until the end of the text, or until one fails. -/
def run : Nat → Scanner → Scanner × Option Complaint
  | 0, scanner => (scanner, none)
  | fuel + 1, scanner =>
    match scanner.tokens with
    | .streamEnd :: _ => (scanner, none)
    | _ =>
      match scanner.step with
      | .ok next => run fuel next
      | .error complaint => (scanner, some complaint)

/-- How many tokens stand before the first place where a mark may still be put. -/
def settledCount (scanner : Scanner) : Nat :=
  scanner.possibleKeys.foldl
    (fun count (_, key) => if scanner.isStale key then count else min count key.tokensBefore)
    scanner.tokens.length

end Scanner

/-- The tokens of a text in order, up to its end or to what is no token. -/
structure Tokens where
  found : List Token
  /-- What is wrong behind the tokens, if anything is. -/
  stop : Option Complaint := none
  deriving Repr

/-- The tokens of a text.  Every step but the last uses up at least one character.

Where a step fails, only tokens are given before which no mark can be missing. -/
def Token.scan (text : List Char) : Tokens :=
  if text.all isPrintable then
    let (scanner, stop) := Scanner.run (text.length + 2) { cursor := { rest := text } }
    let found := scanner.tokens.reverse
    ⟨if stop.isSome then found.take scanner.settledCount else found, stop⟩
  else
    ⟨[], some (.malformed "special characters are not allowed")⟩

end Provenance.Yaml
