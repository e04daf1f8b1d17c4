import Provenance.Path
import Provenance.Record
import Provenance.Reference

/-!
Contract: pinning a reference to the location and revision of a record.

Owns:
- `Record.revision`, the selector that a record offers;
- `Record.location`, the directory's place at the remote;
- `Reference.pin` and its result.

Does **not** own: how a record is found out, and the text of a reference.
-/

set_option autoImplicit false

namespace Provenance

open Failure (Fault)

/-- The selector of a record: its first tag, else its first branch, else its commit. -/
def Record.revision (record : Record) : String :=
  match record.tags with
  | tag :: _ => tag
  | [] =>
    match record.branch with
    | branch :: _ => branch
    | [] => record.hash

def Record.location (record : Record) : String :=
  if record.relDir.isEmpty then record.gitUrl
  else Path.normalize (Path.join record.gitUrl record.relDir)

def Record.isEffective (record : Record) : Bool :=
  !record.gitUrl.isEmpty

/-- The outcome of pinning: the very input, or a new reference. -/
inductive Pinned where
  | kept (reference : Reference)
  | moved (reference : Reference)
  deriving DecidableEq, Repr

def Pinned.reference : Pinned → Reference
  | .kept reference => reference
  | .moved reference => reference

def Pinned.isKept : Pinned → Bool
  | .kept _ => true
  | .moved _ => false

namespace Reference

/-- The reference at the record's location; a selector of its own is kept. -/
def moveTo (reference : Reference) (record : Record) : Reference :=
  reference.withRemote record.location (Record.firstGiven reference.tag record.revision)
    reference.localPath

/-- The reference pinned to a record.  Without a record that says where, it is kept. -/
def pin (reference : Reference) (record : Option Record) : Except Fault Pinned :=
  match record with
  | none => .ok (.kept reference)
  | some record =>
    if record.isEffective then
      match reference.variant with
      | .other _ typeName => .error (.unsupportedVariant typeName)
      | _ => .ok (.moved (reference.moveTo record))
    else
      .ok (.kept reference)

end Reference
end Provenance
