import Provenance.Text.Scan

/-!
Contract: paths as texts, without a file system.

Owns:
- `normalize`, which takes out empty, `.` and resolvable `..` segments;
- `join`, `isAbsolute`, `segments`;
- `tidy`, the form in which a path is shown: no empty and no `.` segments, but
  `..` kept;
- `name`, `parent`, `ending` of a tidy path.

Does **not** own: symbolic links and what exists, which `Provenance.World.Files`
knows.

## Why there are two normal forms

Dropping `..` together with the segment before it is only right where that
segment is no link.  A location in a repository has no links, so it is
normalized; a path that a user names is only tidied.
-/

set_option autoImplicit false

namespace Provenance.Path

open Text (split joinWith startsWith endsWith)

def isAbsolute (path : String) : Bool :=
  startsWith "/" path

/-- A path below a directory; an absolute one stands for itself. -/
def join (directory path : String) : String :=
  if isAbsolute path then path
  else if directory.isEmpty || endsWith "/" directory then directory ++ path
  else directory ++ "/" ++ path

/-- The slashes a path keeps in front: two if it starts with exactly two. -/
def rootOf (path : List Char) : List Char :=
  match path with
  | '/' :: '/' :: '/' :: _ => ['/']
  | '/' :: '/' :: _ => ['/', '/']
  | '/' :: _ => ['/']
  | _ => []

/-- Segments with `..` resolved; `kept` holds what has been kept so far, the last one first. -/
def resolveParents (absolute : Bool) : List (List Char) → List (List Char) → List (List Char)
  | kept, [] => kept.reverse
  | kept, segment :: rest =>
    if segment = [] ∨ segment = ['.'] then
      resolveParents absolute kept rest
    else if segment = ['.', '.'] then
      match kept with
      | [] => resolveParents absolute (if absolute then [] else [segment]) rest
      | last :: others =>
        if last = ['.', '.'] then resolveParents absolute (segment :: kept) rest
        else resolveParents absolute others rest
    else
      resolveParents absolute (segment :: kept) rest

/-- The path without empty, `.` and resolvable `..` segments; the empty path is `.`. -/
def normalize (path : String) : String :=
  let characters := path.toList
  let root := rootOf characters
  let segments := resolveParents (!root.isEmpty) [] (split '/' characters)
  match root ++ joinWith '/' segments with
  | [] => "."
  | normal => String.ofList normal

/-- The segments of a path that name something: neither empty nor `.`. -/
def segments (path : String) : List String :=
  ((split '/' path.toList).filter fun segment => segment ≠ [] ∧ segment ≠ ['.']).map String.ofList

/-- The path of some segments below a root text. -/
def ofSegments (root : String) (segments : List String) : String :=
  if root.isEmpty && segments.isEmpty then "." else root ++ "/".intercalate segments

/-- The path as it is shown: without empty and `.` segments. -/
def tidy (path : String) : String :=
  ofSegments (String.ofList (rootOf path.toList)) (segments path)

/-- The last segment of a path; the root has none. -/
def name (path : String) : String :=
  (segments path).getLast?.getD ""

/-- The directory that a path lies in; the root and `.` lie in themselves. -/
def parent (path : String) : String :=
  ofSegments (String.ofList (rootOf path.toList)) (segments path).dropLast

/-- The ending of a file's name: from the last point on, which is neither first nor last in it. -/
def ending (path : String) : String :=
  match Text.cutLast? '.' (name path).toList with
  | some (before, after) =>
    if before.isEmpty || after.isEmpty then "" else String.ofList ('.' :: after)
  | none => ""

end Provenance.Path
