import Provenance.Data.Moment
import Provenance.Number.Decimal

/-!
Contract: the values that settings and records are made of.

Owns:
- `Scalar` and `Value`: what a settings file, a record or a request can hold;
- `Kind`, the name of what a value is;
- the key relation of dictionaries and their operations, which keep the order of
  first insertion.

Does **not** own: any text of a value, and the formats that read and write it.

## Why keys are scalars

A dictionary key may be a number or a truth value as well as a text.  Keys that
are equal as numbers are one key, whatever their kinds: `true`, `1` and `1.0`.  So are
dates with times and zones that are one instant.
-/

set_option autoImplicit false

namespace Provenance.Data

open Number (Binary64)

/-- What a value is, for messages. -/
inductive Kind where
  | null
  | bool
  | int
  | float
  | text
  | date
  | datetime
  | time
  | bytes
  | list
  | dict
  | set
  deriving DecidableEq, Repr

namespace Kind

def name : Kind → String
  | .null => "NoneType"
  | .bool => "bool"
  | .int => "int"
  | .float => "float"
  | .text => "str"
  | .date => "date"
  | .datetime => "datetime"
  | .time => "time"
  | .bytes => "bytes"
  | .list => "list"
  | .dict => "dict"
  | .set => "set"

/-- The word for a kind where its origin is named too. -/
def qualifiedName : Kind → String
  | .date => "datetime.date"
  | .datetime => "datetime.datetime"
  | .time => "datetime.time"
  | other => other.name

end Kind

/-- A value without parts. -/
inductive Scalar where
  | null
  | bool (value : Bool)
  | int (value : Int)
  | float (value : Binary64)
  | text (value : String)
  | date (value : Date)
  | datetime (date : Date) (clock : Clock)
  | time (value : Clock)
  | bytes (octets : List UInt8)
  deriving DecidableEq, Repr

/-- A scalar, or a collection of values.

A `link` stands for the collection in a numbered cell, see `Provenance.Data.Shared`. -/
inductive Value where
  | scalar (value : Scalar)
  | list (items : List Value)
  | pairs (entries : List (Value × Value))
  | dict (entries : List (Scalar × Value))
  | set (members : List Scalar)
  | link (cell : Nat) (kind : Kind)
  deriving Repr

/-- The entries of a dictionary in order. -/
abbrev Entries := List (Scalar × Value)

instance : Inhabited Value := ⟨.scalar .null⟩

namespace Value

/-- The value that stands for the absence of one. -/
abbrev null : Value := .scalar .null

/-- A truth value. -/
abbrev bool (value : Bool) : Value := .scalar (.bool value)

/-- A whole number. -/
abbrev int (value : Int) : Value := .scalar (.int value)

/-- A floating-point number. -/
abbrev float (value : Binary64) : Value := .scalar (.float value)

/-- A text. -/
abbrev text (value : String) : Value := .scalar (.text value)

def texts (values : List String) : Value :=
  .list (values.map fun value => .text value)

def record (entries : List (String × Value)) : Value :=
  .dict (entries.map fun (key, value) => (.text key, value))

end Value

def Scalar.kind : Scalar → Kind
  | .null => .null
  | .bool _ => .bool
  | .int _ => .int
  | .float _ => .float
  | .text _ => .text
  | .date _ => .date
  | .datetime .. => .datetime
  | .time _ => .time
  | .bytes _ => .bytes

def Value.kind : Value → Kind
  | .scalar value => value.kind
  | .list _ => .list
  | .pairs _ => .list
  | .dict _ => .dict
  | .set _ => .set
  | .link _ kind => kind

namespace Scalar

/-- The whole number a scalar counts as, if it is one. -/
def whole? : Scalar → Option Int
  | .bool value => some (if value then 1 else 0)
  | .int value => some value
  | .float value => if value.isWhole then value.truncate? else none
  | _ => none

def sameKey (left right : Scalar) : Bool :=
  match left, right with
  | .text leftText, .text rightText => leftText == rightText
  | .text _, _ => false
  | _, .text _ => false
  | .datetime leftDate leftClock, .datetime rightDate rightClock =>
    Moment.isSame leftDate leftClock rightDate rightClock
  | _, _ =>
    match left.whole?, right.whole? with
    | some leftNumber, some rightNumber => leftNumber == rightNumber
    | none, none => left == right
    | _, _ => false

end Scalar

namespace Entries

def find? (key : Scalar) : Entries → Option Value
  | [] => none
  | (other, value) :: rest => if other.sameKey key then some value else find? key rest

def get? (entries : Entries) (key : String) : Option Value :=
  entries.find? (.text key)

def hasKey (entries : Entries) (key : Scalar) : Bool :=
  (entries.find? key).isSome

/-- The entries with `value` under `key`: in the old place, or at the end if the key is new. -/
def insert (key : Scalar) (value : Value) : Entries → Entries
  | [] => [(key, value)]
  | (other, old) :: rest =>
    if other.sameKey key then (other, value) :: rest
    else (other, old) :: insert key value rest

/-- The entries after the given ones have been inserted in order. -/
def insertAll (entries additions : Entries) : Entries :=
  additions.foldl (fun built (key, value) => insert key value built) entries

/-- Entries in which no two keys are the same, each key in its first place with its last value. -/
def ofList (entries : Entries) : Entries :=
  insertAll [] entries

def keys (entries : Entries) : List Scalar :=
  entries.map Prod.fst

end Entries

/-- Whether a value counts as present: not null, false, zero or empty. -/
def Value.isTruthy : Value → Bool
  | .scalar .null => false
  | .scalar (.bool value) => value
  | .scalar (.int value) => value != 0
  | .scalar (.float value) => !value.isZero
  | .scalar (.text value) => value != ""
  | .scalar (.bytes octets) => !octets.isEmpty
  | .scalar _ => true
  | .list items => !items.isEmpty
  | .pairs entries => !entries.isEmpty
  | .dict entries => !entries.isEmpty
  | .set members => !members.isEmpty
  | .link .. => true

end Provenance.Data
