import Provenance.Data.Shared
import Provenance.Failure.Fault

/-!
Contract: one layer of settings over another.

Owns:
- `merge`, for layers without shared parts;
- `mergeShared`, for an upper layer with shared parts.

Does **not** own: where the layers come from.

## The rule

An entry of the upper layer replaces the entry under its key, but two
dictionaries are merged inside.  Keys of the lower layer keep their places, new
ones follow in the order of the upper layer.  The dictionary that two are merged into
is a new one, which shares nothing; what it takes over from the upper layer stays
shared.
-/

set_option autoImplicit false

namespace Provenance.Settings

open Data (Scalar Value Entries Shared)
open Failure (Fault)

def newEntries (known entries : Entries) : Entries :=
  entries.filter fun (key, _) => !known.hasKey key

mutual

/-- What an upper value makes of the lower value under its key; `resolve` gives the dictionary that
an upper value stands for. -/
def overlay (resolve : Value → Value) (upper : Value) : Value → Value
  | .dict lower =>
    match resolve upper with
    | .dict entries => .dict (overlayEntries resolve entries lower ++ newEntries lower entries)
    | _ => upper
  | _ => upper

/-- The lower entries, each under the upper entry of its key. -/
def overlayEntries (resolve : Value → Value) (upper : Entries) : List (Scalar × Value) → Entries
  | [] => []
  | (key, value) :: rest =>
    (key, match upper.find? key with
      | some found => overlay resolve found value
      | none => value) :: overlayEntries resolve upper rest

end

/-- One layer over another, where `resolve` gives what a value of the upper one stands for.

Layers that are no dictionaries are faults: the upper one has no entries, and the
lower one cannot be copied or takes no keys. -/
def mergeWith (resolve : Value → Value) (lower upper : Value) : Except Fault Value :=
  match lower, resolve upper with
  | .dict lowerEntries, .dict _ => .ok (overlay resolve upper (.dict lowerEntries))
  | .dict _, other => .error (.noOperation other.kind "items")
  | .list items, .dict [] => .ok (.list items)
  | .list _, .dict (_ :: _) => .error .listIndexedByText
  | .list _, other => .error (.noOperation other.kind "items")
  | other, _ => .error (.noOperation other.kind "copy")

def merge (lower upper : Value) : Except Fault Value :=
  mergeWith id lower upper

def mergeShared (lower : Value) (upper : Shared) : Except Fault Shared :=
  (mergeWith upper.cells.resolve lower upper.root).map upper.part

end Provenance.Settings
