import Provenance.Text.Blank

/-!
Contract: decimal digits of every script, and whole numbers read from text.

Owns:
- `digitValue?`, the value of a decimal digit;
- `isDigitLike`, the wider class that also has superscript and circled digits;
- `readInteger`, a whole number with an optional sign, white space around it and
  single underscores between its digits;
- `readBased?`, a whole number in base two, eight or sixteen;
- `DigitLimit`, how many digits a number may have that is read or written, and `isTooLong`, whether
  a number has more.

Does **not** own: numbers with a point or an exponent, and the number grammars of
the data formats.

## Why two classes of digits

A text of digit-like characters announces a number, but only decimal digits have
a place value.  The gap between the two (`²`, `①`) is where reading fails.

## Why the limit is a class

How many digits are converted at most is set for a runtime as a whole, and no function here sets it
or asks for it.  What reads and writes data takes the limit as it finds it, so that what is said of
the data does not hang on one setting.  The commands run with the usual one.
-/

set_option autoImplicit false

namespace Provenance.Text

/-- The code points of the zeros; the other nine digits of each script follow directly. -/
def zeroCodes : List Nat :=
  [
    0x30, 0x660, 0x6f0, 0x7c0, 0x966, 0x9e6, 0xa66, 0xae6, 0xb66, 0xbe6,
    0xc66, 0xce6, 0xd66, 0xde6, 0xe50, 0xed0, 0xf20, 0x1040, 0x1090, 0x17e0,
    0x1810, 0x1946, 0x19d0, 0x1a80, 0x1a90, 0x1b50, 0x1bb0, 0x1c40, 0x1c50, 0xa620,
    0xa8d0, 0xa900, 0xa9d0, 0xa9f0, 0xaa50, 0xabf0, 0xff10, 0x104a0, 0x10d30, 0x11066,
    0x110f0, 0x11136, 0x111d0, 0x112f0, 0x11450, 0x114d0, 0x11650, 0x116c0, 0x11730, 0x118e0,
    0x11950, 0x11c50, 0x11d50, 0x11da0, 0x16a60, 0x16ac0, 0x16b50, 0x1d7ce, 0x1d7d8, 0x1d7e2,
    0x1d7ec, 0x1d7f6, 0x1e140, 0x1e2f0, 0x1e950, 0x1fbf0
  ]

/-- Ranges of superscript, subscript, circled and similar digits without a place value. -/
def digitLikeRanges : List (Nat × Nat) :=
  [
    (0xb2, 0xb3), (0xb9, 0xb9), (0x1369, 0x1371), (0x19da, 0x19da), (0x2070, 0x2070),
    (0x2074, 0x2079), (0x2080, 0x2089), (0x2460, 0x2468), (0x2474, 0x247c), (0x2488, 0x2490),
    (0x24ea, 0x24ea), (0x24f5, 0x24fd), (0x24ff, 0x24ff), (0x2776, 0x277e), (0x2780, 0x2788),
    (0x278a, 0x2792), (0x10a40, 0x10a43), (0x10e60, 0x10e68), (0x11052, 0x1105a),
    (0x1f100, 0x1f10a)
  ]

/-- The value of a decimal digit of any script. -/
def digitValue? (character : Char) : Option Nat :=
  let code := character.toNat
  (zeroCodes.find? fun first => first ≤ code && code ≤ first + 9).map (code - ·)

/-- Whether a character is a digit in the wide sense. -/
def isDigitLike (character : Char) : Bool :=
  (digitValue? character).isSome ||
    digitLikeRanges.any fun (low, high) => low ≤ character.toNat && character.toNat ≤ high

/-- Whether a text is one or more digits in the wide sense. -/
def isDigitText (text : String) : Bool :=
  !text.isEmpty && text.toList.all isDigitLike

/-- The number that a list of digit values denotes, most significant digit first. -/
def positional (base : Nat) (digits : List Nat) : Nat :=
  digits.foldl (fun number digit => number * base + digit) 0

/-- The most digits that a whole number may have to be read from a text or written as one. -/
class DigitLimit where
  /-- None where numbers of any length are read and written. -/
  most? : Option Nat
  positive : ∀ most ∈ most?, 0 < most

/-- The limit that holds where no other is set. -/
instance DigitLimit.usual : DigitLimit where
  most? := some 4300
  positive := by decide

section Limits

variable [limit : DigitLimit]

/-- Whether a text of so many digits has too many to be read as a number. -/
def hasTooMany (digits : Nat) : Bool :=
  limit.most?.any fun most => decide (most < digits)

/-- Whether a whole number has more digits than may be written. -/
def isTooLong (number : Int) : Bool :=
  limit.most?.any fun most => decide (Nat.pow 10 most ≤ number.natAbs)

/-- The limit in the words of a message. -/
def limitText : String :=
  toString (limit.most?.getD 0)

end Limits

/-- Whether a character may stand around a number: white space other than the four separators. -/
def isNumberBlank (character : Char) : Bool :=
  isBlank character && !(28 ≤ character.toNat && character.toNat ≤ 31)

/-- A text without the white space around a number. -/
def trimNumber (text : List Char) : List Char :=
  ((text.dropWhile isNumberBlank).reverse.dropWhile isNumberBlank).reverse

/-- A number's sign, and what follows it. -/
def takeSign : List Char → Bool × List Char
  | '-' :: rest => (true, rest)
  | '+' :: rest => (false, rest)
  | text => (false, text)

/-- What reading a whole number can come to. -/
inductive IntegerReading where
  | number (value : Int)
  | malformed
  /-- The text is a number of more digits than the limit. -/
  | tooLong (digits : Nat)
  deriving DecidableEq, Repr

/-- The digit values of a text in which single underscores may stand between digits. -/
def groupedDigits? : List Char → Option (List Nat)
  | [] => none
  | [character] => (digitValue? character).map ([·])
  | character :: '_' :: rest => do
    let digit ← digitValue? character
    let digits ← groupedDigits? rest
    pure (digit :: digits)
  | character :: rest => do
    let digit ← digitValue? character
    let digits ← groupedDigits? rest
    pure (digit :: digits)

/-- A whole number: white space around it, one sign in front, underscores between digits. -/
def readInteger [DigitLimit] (text : String) : IntegerReading :=
  let (negative, unsigned) := takeSign (trimNumber text.toList)
  match groupedDigits? unsigned with
  | none => .malformed
  | some digits =>
    if hasTooMany digits.length then
      .tooLong digits.length
    else
      let magnitude : Int := positional 10 digits
      .number (if negative then -magnitude else magnitude)

/-- The value of a digit up to fifteen: a decimal digit of any script, or a letter. -/
def basedDigit? (character : Char) : Option Nat :=
  match digitValue? character with
  | some value => some value
  | none =>
    let code := character.toNat
    if 97 ≤ code ∧ code ≤ 102 then some (code - 87)
    else if 65 ≤ code ∧ code ≤ 70 then some (code - 55)
    else none

/-- The digits behind the mark of a base, which is a zero and one of two letters. -/
def afterBaseMark (letters : List Char) : List Char → List Char
  | zero :: letter :: rest =>
    if digitValue? zero = some 0 && letters.contains letter then rest else zero :: letter :: rest
  | text => text

/-- A whole number in base two, eight or sixteen: white space around it, one sign, the mark of its
base perhaps, and digits. -/
def readBased? (base : Nat) (letters : List Char) (text : List Char) : Option Int := do
  let (negative, unsigned) := takeSign (trimNumber text)
  let digits ← (afterBaseMark letters unsigned).mapM basedDigit?
  if digits.isEmpty || digits.any (base ≤ ·) then none
  else
    let magnitude : Int := positional base digits
    some (if negative then -magnitude else magnitude)

end Provenance.Text
