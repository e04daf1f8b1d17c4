import Provenance.Text.Scan

/-!
Contract: text as octets.

Owns:
- `encode`, the octets of a text;
- `pieces`, the characters and the broken parts of a run of octets, in order;
- `decodeReplacing` and `decodeStrict`, the two readings of those pieces;
- `unifyLineEnds`, which turns every line end into one line feed.

Does **not** own: byte order marks and which files hold text.

## Why one octet at a time

The lead octet fixes how many octets follow and which values the first of them
may have; each later one is a continuation octet.  A machine that holds what is
still due sees a broken sequence at the earliest octet that cannot belong to it,
so the broken part is the longest beginning of a character, and the offending
octet starts afresh.
-/

set_option autoImplicit false

namespace Provenance.Text.Utf8

/-- An octet that carries six bits of a character begun before. -/
def continuation (bits : Nat) : UInt8 :=
  UInt8.ofNat (0x80 + bits % 64)

def encodeCharacter (character : Char) : List UInt8 :=
  let code := character.toNat
  if code < 0x80 then
    [UInt8.ofNat code]
  else if code < 0x800 then
    [UInt8.ofNat (0xc0 + code / 64), continuation code]
  else if code < 0x10000 then
    [UInt8.ofNat (0xe0 + code / 4096), continuation (code / 64), continuation code]
  else
    [
      UInt8.ofNat (0xf0 + code / 262144), continuation (code / 4096),
      continuation (code / 64), continuation code
    ]

def encode (text : String) : List UInt8 :=
  text.toList.flatMap encodeCharacter

/-- A character that has begun: what is still due and what has been read. -/
structure Pending where
  due : Nat
  low : Nat
  high : Nat
  bits : Nat
  /-- The octets read so far, the last one first. -/
  seen : List UInt8
  deriving DecidableEq, Repr

/-- What an octet can begin. -/
inductive Start where
  | whole (character : Char)
  | begun (pending : Pending)
  | none
  deriving DecidableEq, Repr

/-- What an octet begins: a character of its own, a longer one, or nothing. -/
def start (octet : UInt8) : Start :=
  let value := octet.toNat
  let lead (due low high offset : Nat) : Start := .begun ⟨due, low, high, value - offset, [octet]⟩
  if value < 0x80 then .whole (Char.ofNat value)
  else if value < 0xc2 then .none
  else if value < 0xe0 then lead 1 0x80 0xbf 0xc0
  else if value = 0xe0 then lead 2 0xa0 0xbf 0xe0
  else if value = 0xed then lead 2 0x80 0x9f 0xe0
  else if value < 0xf0 then lead 2 0x80 0xbf 0xe0
  else if value = 0xf0 then lead 3 0x90 0xbf 0xf0
  else if value < 0xf4 then lead 3 0x80 0xbf 0xf0
  else if value = 0xf4 then lead 3 0x80 0x8f 0xf0
  else .none

/-- Why some octets are no character. -/
inductive Fault where
  | startOctet
  | continuationOctet
  | truncated
  deriving DecidableEq, Repr

def Fault.message : Fault → String
  | .startOctet => "invalid start byte"
  | .continuationOctet => "invalid continuation byte"
  | .truncated => "unexpected end of data"

/-- A character, or octets that are none. -/
inductive Piece where
  | character (value : Char)
  | broken (fault : Fault) (position : Nat) (octets : List UInt8)
  deriving DecidableEq, Repr

/-- The step at an octet where no character is open. -/
def begin (position : Nat) (octet : UInt8) : Option Pending × List Piece :=
  match start octet with
  | .whole character => (none, [.character character])
  | .begun pending => (some pending, [])
  | .none => (none, [.broken .startOctet position [octet]])

/-- The step at an octet, given the open character. -/
def step (position : Nat) : Option Pending → UInt8 → Option Pending × List Piece
  | none, octet => begin position octet
  | some pending, octet =>
    let value := octet.toNat
    if pending.low ≤ value ∧ value ≤ pending.high then
      let bits := pending.bits * 64 + (value - 0x80)
      if pending.due ≤ 1 then
        (none, [.character (Char.ofNat bits)])
      else
        (some ⟨pending.due - 1, 0x80, 0xbf, bits, octet :: pending.seen⟩, [])
    else
      let (open_, rest) := begin position octet
      (open_,
        .broken .continuationOctet (position - pending.seen.length) pending.seen.reverse :: rest)

/-- The pieces of the octets from `position` on, given the open character. -/
def piecesFrom (position : Nat) : Option Pending → List UInt8 → List Piece
  | none, [] => []
  | some pending, [] =>
    [.broken .truncated (position - pending.seen.length) pending.seen.reverse]
  | open_, octet :: rest =>
    let (next, found) := step position open_ octet
    found ++ piecesFrom (position + 1) next rest

/-- The characters and broken parts of a run of octets. -/
def pieces (octets : List UInt8) : List Piece :=
  piecesFrom 0 none octets

/-- The character a piece stands for when every broken part becomes a replacement character. -/
def Piece.shown : Piece → Char
  | .character value => value
  | .broken .. => Char.ofNat 0xfffd

/-- The text of the octets, with a replacement character for every broken part. -/
def decodeReplacing (octets : List UInt8) : List Char :=
  (pieces octets).map Piece.shown

/-- The place and reason of a failed reading. -/
structure DecodeError where
  fault : Fault
  position : Nat
  octets : List UInt8
  deriving DecidableEq, Repr

/-- What is said of octets that are no text. -/
def DecodeError.message (error : DecodeError) : String :=
  let place :=
    match error.octets with
    | [octet] =>
      "byte 0x" ++ String.ofList (hexadecimal 2 octet.toNat) ++ " in position " ++
        toString error.position
    | octets =>
      "bytes in position " ++ toString error.position ++ "-" ++
        toString (error.position + octets.length - 1)
  "'utf-8' codec can't decode " ++ place ++ ": " ++ error.fault.message

/-- The characters of pieces none of which is broken. -/
def wholeCharacters : List Piece → Except DecodeError (List Char)
  | [] => .ok []
  | .character value :: rest => (wholeCharacters rest).map (value :: ·)
  | .broken fault position octets :: _ => .error ⟨fault, position, octets⟩

/-- The text of the octets, or the first broken part. -/
def decodeStrict (octets : List UInt8) : Except DecodeError (List Char) :=
  wholeCharacters (pieces octets)

/-- The text with a line feed for every line end. -/
def unifyLineEnds : List Char → List Char
  | [] => []
  | '\r' :: '\n' :: rest => '\n' :: unifyLineEnds rest
  | '\r' :: rest => '\n' :: unifyLineEnds rest
  | character :: rest => character :: unifyLineEnds rest

end Provenance.Text.Utf8
