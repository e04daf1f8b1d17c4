import Provenance.World.Basic
import Provenance.World.Resolve

/-!
Contract: the place of a directory below the root of its repository.

Owns:
- `below?`, the comparison of two paths segment by segment;
- `relativeDirectory`, for a directory that is first resolved.

Does **not** own: links and what exists, which `Provenance.World.Resolve` decides.
-/

set_option autoImplicit false

namespace Provenance.Location

open Failure (Fault)
open Text (split joinWith dropTrailing)

/-- The segments of a base path after its trailing slashes are dropped. -/
def baseSegments (base : List Char) : List (List Char) :=
  split '/' (dropTrailing '/' base)

/-- What is left of a path's segments below a base, if the base leads there. -/
def dropBase? : List (List Char) → List (List Char) → Option (List (List Char))
  | [], path => some path
  | _ :: _, [] => none
  | base :: bases, segment :: segments =>
    if base = segment then dropBase? bases segments else none

/-- A path relative to a base: `.` for the base itself, nothing outside it. -/
def below? (base path : String) : Option String :=
  (dropBase? (baseSegments base.toList) (split '/' path.toList)).map fun segments =>
    match joinWith '/' segments with
    | [] => "."
    | relative => String.ofList relative

/-- The problem of a directory that cannot be resolved, or the fault that is none. -/
def unresolved (directory : String) (fault : Fault) : Failure :=
  if fault.isRefusal || fault.className == "RuntimeError" then
    Failure.git .relativePath ("eval symlinks for " ++ directory ++ ": " ++ fault.message)
  else
    .fault fault

/-- A directory's path relative to a base, given the outcome of resolving the directory. -/
def relativeTo (base directory : String) (resolved : Except Fault World.Place) :
    Except Failure String :=
  match resolved with
  | .error fault => .error (unresolved directory fault)
  | .ok place =>
    if Path.isAbsolute base then
      match below? base (World.Files.placeText place) with
      | some relative => .ok relative
      | none =>
        .error (Failure.git .outsideRepository
          (directory ++ " is not within git base path " ++ base))
    else
      .error (Failure.git .relativePath ("git base path " ++ base ++ " is not absolute"))

def relativeDirectory {Time : Type} (base directory : String) : Program Time String := do
  let world ← Program.world
  match relativeTo base directory (World.resolve world.files world.cwd directory) with
  | .ok relative => pure relative
  | .error failure => Program.fail failure

end Provenance.Location
