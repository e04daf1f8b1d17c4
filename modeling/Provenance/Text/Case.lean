import Provenance.Text.CaseTable

/-!
Contract: letter case.

Owns:
- `lower`, the lower-case form of a text in every script, with the final form of
  sigma at the end of a word;
- `upperAscii`, the upper-case form as far as it lands among the ASCII letters.

Does **not** own: upper-case forms outside ASCII; no name that is compared in
upper case has such a character, so the text is only required to stay different
from every such name.
-/

set_option autoImplicit false

namespace Provenance.Text

private def inRanges (ranges : List (Nat × Nat)) (character : Char) : Bool :=
  ranges.any fun (low, high) => low ≤ character.toNat && character.toNat ≤ high

/-- Whether a character has case and is not skipped when the end of a word is sought. -/
def isCased (character : Char) : Bool :=
  inRanges CaseTable.casedRanges character

/-- Whether a character is skipped when the end of a word is sought. -/
def isCaseIgnorable (character : Char) : Bool :=
  inRanges CaseTable.caseIgnorableRanges character

/-- The lower-case form of one character, away from the end of a word. -/
def lowerCharacter (character : Char) : List Char :=
  let code := character.toNat
  if code < 0x80 then
    [if 0x41 ≤ code && code ≤ 0x5a then Char.ofNat (code + 32) else character]
  else if code = 0x130 then
    ['i', Char.ofNat 0x307]
  else
    match CaseTable.lowerRuns.find? fun run =>
        run.first ≤ code && code ≤ run.last && (code - run.first) % run.stride = 0 with
    | some run => [Char.ofNat (code + run.distance).toNat]
    | none => [character]

/-- Whether the nearest character that is not skipped has case. -/
def meetsCased (characters : List Char) : Bool :=
  match characters.dropWhile isCaseIgnorable with
  | character :: _ => isCased character
  | [] => false

/-- The lower-case form of the characters after those of `seen`, which are held nearest first. -/
def lowerFrom : List Char → List Char → List Char
  | _, [] => []
  | seen, character :: rest =>
    let form :=
      if character.toNat = 0x3a3 then
        [Char.ofNat (if meetsCased seen && !meetsCased rest then 0x3c2 else 0x3c3)]
      else
        lowerCharacter character
    form ++ lowerFrom (character :: seen) rest

def lower (text : String) : String :=
  String.ofList (lowerFrom [] text.toList)

/-- Upper-case forms of one character outside ASCII that consist of ASCII letters. -/
def asciiExpansions : List (Nat × String) :=
  [
    (0xdf, "SS"), (0x131, "I"), (0x17f, "S"), (0xfb00, "FF"), (0xfb01, "FI"), (0xfb02, "FL"),
    (0xfb03, "FFI"), (0xfb04, "FFL"), (0xfb05, "ST"), (0xfb06, "ST")
  ]

/-- The upper-case form of one character, as far as it consists of ASCII letters. -/
def upperAsciiCharacter (character : Char) : List Char :=
  let code := character.toNat
  if 0x61 ≤ code && code ≤ 0x7a then
    [Char.ofNat (code - 32)]
  else
    match asciiExpansions.lookup code with
    | some expansion => expansion.toList
    | none => [character]

/-- A text with every letter raised whose upper-case form consists of ASCII letters. -/
def upperAscii (text : String) : String :=
  String.ofList (text.toList.flatMap upperAsciiCharacter)

end Provenance.Text
