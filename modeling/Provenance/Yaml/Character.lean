/-!
Contract: the classes of characters that YAML distinguishes.

Owns: `isBreak`, `isGap`, `isPrintable` and the characters of names.

Does **not** own: what a character means at a place.
-/

set_option autoImplicit false

namespace Provenance.Yaml

/-- A character that ends a line. -/
def isBreak (character : Char) : Bool :=
  let code := character.toNat
  code = 10 || code = 0x85 || code = 0x2028 || code = 0x2029

/-- The end of the text, which is read as the character zero, or a line end. -/
def isLineEnd (character : Char) : Bool :=
  character.toNat = 0 || character = '\r' || isBreak character

/-- A character that ends a word: a line end, a blank or a tab. -/
def isGap (character : Char) : Bool :=
  character = ' ' || character = '\t' || isLineEnd character

/-- A line end or a blank. -/
def isBlankOrEnd (character : Char) : Bool :=
  character = ' ' || isLineEnd character

/-- A character that may occur in a document. -/
def isPrintable (character : Char) : Bool :=
  let code := character.toNat
  code = 9 || code = 10 || code = 13 || (32 ≤ code && code ≤ 126) || code = 0x85 ||
    (0xa0 ≤ code && code ≤ 0xd7ff) || (0xe000 ≤ code && code ≤ 0xfffd) || 0x10000 ≤ code

/-- A character of an anchor, a handle or the name of a directive. -/
def isNameCharacter (character : Char) : Bool :=
  character.isAlphanum || character = '-' || character = '_'

/-- A character of a tag. -/
def isTagCharacter (character : Char) : Bool :=
  character.isAlphanum || "-;/?:@&=+$,_.!~*'()[]%".toList.contains character

/-- Whether a character is among those of a text. -/
def isAmong (text : String) (character : Char) : Bool :=
  text.toList.contains character

end Provenance.Yaml
