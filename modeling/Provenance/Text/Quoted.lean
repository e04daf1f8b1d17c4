import Provenance.Text.Printable
import Provenance.Text.Scan

/-!
Contract: a text written between quotation marks on one visible line.

Owns:
- `escape`, the written form of one character;
- `quoted`, the whole text: single quotes, unless it holds one and no double
  quote;
- `quotedOctets`, the same for octets.

Does **not** own: the quoting rules of the data formats.
-/

set_option autoImplicit false

namespace Provenance.Text.Quoted

/-- One character between quotes: marks, backslashes and invisible characters are escaped. -/
def escape (mark character : Char) : List Char :=
  if character = mark || character = '\\' then ['\\', character]
  else if character = '\n' then ['\\', 'n']
  else if character = '\r' then ['\\', 'r']
  else if character = '\t' then ['\\', 't']
  else if isPrintable character then [character]
  else if character.toNat < 0x100 then '\\' :: 'x' :: hexadecimal 2 character.toNat
  else if character.toNat < 0x10000 then '\\' :: 'u' :: hexadecimal 4 character.toNat
  else '\\' :: 'U' :: hexadecimal 8 character.toNat

def markFor (text : List Char) : Char :=
  if text.contains '\'' && !text.contains '"' then '"' else '\''

def quoted (text : String) : String :=
  let characters := text.toList
  let mark := markFor characters
  String.ofList (mark :: characters.flatMap (escape mark) ++ [mark])

/-- One octet between quotes: what is not ASCII is escaped by its number. -/
def escapeOctet (mark : Char) (octet : UInt8) : List Char :=
  if octet < 127 then escape mark (Char.ofNat octet.toNat)
  else '\\' :: 'x' :: hexadecimal 2 octet.toNat

/-- Octets between quotation marks, with the letter that tells them from a text. -/
def quotedOctets (octets : List UInt8) : String :=
  let mark := markFor (octets.map fun octet => Char.ofNat octet.toNat)
  String.ofList ('b' :: mark :: octets.flatMap (escapeOctet mark) ++ [mark])

end Provenance.Text.Quoted

namespace Provenance.Text

export Quoted (quoted quotedOctets)

end Provenance.Text
