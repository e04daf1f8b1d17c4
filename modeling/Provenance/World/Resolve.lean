import Provenance.World.Files

/-!
Contract: the path without links that a path stands for.

Owns: `resolve`, which needs every segment on the way to exist.

Does **not** own: opening what is found.

## The rule

Segments are taken one by one.  A `..` takes back the last segment of what has
been resolved so far, and is not looked up.  A link is replaced by its target,
resolved from where the link lies; a link that is met again while its own target
is being resolved is a loop.  Links resolved before are remembered.
-/

set_option autoImplicit false

namespace Provenance.World

open Failure (Fault FileFault)

/-- A path resolved so far: from the root, or from the current directory. -/
structure Resolved where
  isAbsolute : Bool
  segments : List String
  deriving DecidableEq, Repr

namespace Resolved

def root : Resolved := ⟨true, []⟩

def here : Resolved := ⟨false, []⟩

def text (path : Resolved) : String :=
  (if path.isAbsolute then "/" else "") ++ "/".intercalate path.segments

def child (path : Resolved) (segment : String) : Resolved :=
  { path with segments := path.segments ++ [segment] }

/-- One segment back; above the current directory every step back is a `..`. -/
def parent (path : Resolved) : Resolved :=
  match path.segments.getLast? with
  | none => if path.isAbsolute then path else path.child ".."
  | some ".." => path.child ".."
  | some _ => { path with segments := path.segments.dropLast }

/-- The segments from the root, given the current directory. -/
def place (cwd : Place) (path : Resolved) : Place :=
  if path.isAbsolute then path.segments
  else
    path.segments.foldl
      (fun place segment => if segment = ".." then place.dropLast else place ++ [segment]) cwd

end Resolved

/-- Links met so far, with the path each stands for once that is known. -/
abbrev Links := List (Resolved × Option Resolved)

namespace Links

def note (links : Links) (link : Resolved) (outcome : Option Resolved) : Links :=
  (link, outcome) :: links

end Links

def startOf (from_ : Resolved) (path : String) : Resolved :=
  if Path.isAbsolute path then .root else from_

/-- Resolves segments one by one; `follow` resolves a link's target from where the link lies. -/
def resolveWith (files : Files) (cwd : Place)
    (follow : Links → Resolved → String → Except Fault (Resolved × Links)) :
    Links → Resolved → List String → Except Fault (Resolved × Links)
  | links, path, [] => .ok (path, links)
  | links, path, segment :: rest =>
    if segment = "" ∨ segment = "." then
      resolveWith files cwd follow links path rest
    else if segment = ".." then
      resolveWith files cwd follow links path.parent rest
    else
      let next := path.child segment
      if Text.contains '\x00' segment then
        .error .nullCharacter
      else
        match files.locate cwd false next.text with
        | .error .tooManyLinks => .error (.linkLoop next.text)
        | .error fault => .error (.file fault next.text)
        | .ok ⟨_, none⟩ => .error (.file .missing next.text)
        | .ok ⟨_, some (.link target)⟩ =>
          match links.lookup next with
          | some (some known) => resolveWith files cwd follow links known rest
          | some none => .error (.linkLoop next.text)
          | none =>
            match follow (links.note next none) path target with
            | .error fault => .error fault
            | .ok (known, links) =>
              resolveWith files cwd follow (links.note next (some known)) known rest
        | .ok ⟨_, some _⟩ => resolveWith files cwd follow links next rest

/-- Resolves with so many links open at a time. -/
def resolveFrom (files : Files) (cwd : Place) :
    Nat → Links → Resolved → String → Except Fault (Resolved × Links)
  | 0, _, path, _ => .error (.linkLoop path.text)
  | depth + 1, links, path, target =>
    resolveWith files cwd (resolveFrom files cwd depth) links (startOf path target)
      (Text.splitText '/' target)

/-- How many links can be open at a time: each is named from the root, or from some directory
between the current one and the root. -/
def linkDepth (files : Files) (cwd : Place) : Nat :=
  (files.entries.length + 1) * (cwd.length + 2) + 1

def resolve (files : Files) (cwd : Place) (path : String) : Except Fault Place := do
  let (resolved, _) ← resolveFrom files cwd (linkDepth files cwd) [] .here (Path.tidy path)
  pure (resolved.place cwd)

end Provenance.World
