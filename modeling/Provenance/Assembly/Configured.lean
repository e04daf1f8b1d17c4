import Provenance.Assembly.Service
import Provenance.Settings.Entry

/-!
Contract: a service made from settings.

Owns:
- `countOf`, the whole number that a settings value denotes;
- `Service.ofSettings`, with the defaults of what is not set.

Does **not** own: where settings are read from, and what wrong values come to
when they are used.

## Why limits are settings values

A limit, a program name or a remote is taken as it stands.  Only the number of
workers is needed at once, so only it can be refused here.
-/

set_option autoImplicit false

namespace Provenance.Assembly

open Data (Value Scalar Entries Shared)
open Failure (Fault)
open Settings (entryOr)

/-- The whole number that a text denotes; `inspected` is what is shown of a text that denotes
none. -/
def wholeOf (text inspected : String) : Except Fault Int :=
  match Text.readInteger text with
  | .number value => .ok value
  | .malformed => .error (.notAnInteger inspected)
  | .tooLong digits => .error (.tooManyDigits digits)

/-- The whole number that a value denotes: a fraction is cut off, a text or octets are read. -/
def countOf : Value → Except Fault Int
  | .scalar (.bool value) => .ok (if value then 1 else 0)
  | .scalar (.int value) => .ok value
  | .scalar (.float value) =>
    match value with
    | .nan => .error .notANumber
    | .infinite _ => .error (.overflow "cannot convert float infinity to integer")
    | finite => .ok (finite.truncate?.getD 0)
  | .scalar (.text text) => wholeOf text (Text.quoted text)
  | .scalar (.bytes octets) =>
    wholeOf (String.ofList (octets.map fun octet => Char.ofNat octet.toNat))
      (Text.quotedOctets octets)
  | other => .error (.notACount other.kind)

namespace Service

def clientOf (section_ : Shared) : Except Fault (Git.Client Value) := do
  let timeout ← entryOr "timeout_seconds" (.int 30) section_
  let binary ← entryOr "binary" (.text "git") section_
  let length ← entryOr "short_hash_length" (.int 8) section_
  pure { timeout := timeout.value, binary := binary.value, shortHashLength := length.value }

/-- The service that settings describe, with a client of its own or the one described. -/
def ofSettings (client : Option (Git.Client Value)) (settings : Shared) :
    Except Fault (Service Value) := do
  let settings := if settings.isTruthy then settings else .plain (.dict [])
  let section_ ← entryOr "git" (.dict []) settings
  let client ←
    match client with
    | some client => pure client
    | none => clientOf section_
  let remote ← entryOr "remote" (.text "origin") section_
  let parallel ← entryOr "parallel_queries" (.int 1) section_
  let count ← countOf parallel.value
  let deadline ← entryOr "deadline_seconds" (.int 0) section_
  pure {
    client := client
    remote := remote.value
    parallel := count.toNat.max 1
    deadlineSeconds := if deadline.isTruthy then some deadline.value else none
  }

end Service
end Provenance.Assembly
