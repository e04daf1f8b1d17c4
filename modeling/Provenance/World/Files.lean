import Provenance.Failure.Fault
import Provenance.Path
import Provenance.Text.Utf8

/-!
Contract: a tree of directories, files and symbolic links.

Owns:
- `Files` and its entries by place;
- `locate`, the walk along a path through links;
- the operations on the tree with the faults they answer.

Does **not** own: the current directory, which every operation is given, and
faults of other kinds than the operating system's.

## Why the tree is flat

A place is the list of segments from the root, and the tree maps places to
entries.  An operation changes one entry, so what it leaves alone is plain.
-/

set_option autoImplicit false

namespace Provenance.World

open Failure (FileFault)

/-- A place in the tree: the segments from the root. -/
abbrev Place := List String

/-- What can be at a place. -/
inductive Entry where
  | directory
  | file (octets : List UInt8) (isExecutable : Bool)
  | link (target : String)
  deriving DecidableEq, Repr

def Entry.isLink : Entry → Bool
  | .link _ => true
  | _ => false

/-- The entries of a tree by place.  The root is a directory without being listed. -/
structure Files where
  entries : List (Place × Entry) := []
  deriving DecidableEq, Repr

namespace Files

def entry? (files : Files) (place : Place) : Option Entry :=
  if place.isEmpty then some .directory else files.entries.lookup place

/-- Entries with one of them replaced, or added at the end. -/
def putEntry (place : Place) (entry : Entry) : List (Place × Entry) → List (Place × Entry)
  | [] => [(place, entry)]
  | (other, old) :: rest =>
    if other = place then (place, entry) :: rest else (other, old) :: putEntry place entry rest

def put (files : Files) (place : Place) (entry : Entry) : Files :=
  ⟨putEntry place entry files.entries⟩

def erase (files : Files) (place : Place) : Files :=
  ⟨files.entries.filter fun (other, _) => other ≠ place⟩

def placeText (place : Place) : String :=
  "/" ++ "/".intercalate place

/-- The greatest length of a name, in octets. -/
def nameLimit : Nat := 255

/-- The length that no path reaches, in octets. -/
def pathLimit : Nat := 4096

def linkLimit : Nat := 40

/-- Where a path leads, and what is there; nothing may be at a last segment. -/
structure Target where
  place : Place
  entry : Option Entry
  deriving DecidableEq, Repr

/-- A walk along segments from a directory; `follow` continues at a link's target. -/
def walkWith (files : Files) (followLast : Bool)
    (follow : Place → List String → Except FileFault Target) (here : Place) :
    List String → Except FileFault Target
  | [] => .ok ⟨here, files.entry? here⟩
  | segment :: rest =>
    if segment = "" ∨ segment = "." then
      walkWith files followLast follow here rest
    else if segment = ".." then
      walkWith files followLast follow here.dropLast rest
    else if nameLimit < segment.utf8ByteSize then
      .error .nameTooLong
    else
      let place := here ++ [segment]
      match files.entry? place with
      | none => if rest.all String.isEmpty then .ok ⟨place, none⟩ else .error .missing
      | some .directory => walkWith files followLast follow place rest
      | some (.file octets isExecutable) =>
        if rest.isEmpty then .ok ⟨place, some (.file octets isExecutable)⟩
        else .error .notADirectory
      | some (.link target) =>
        if rest.isEmpty && !followLast then .ok ⟨place, some (.link target)⟩
        else if target.isEmpty then .error .missing
        else
          follow (if Path.isAbsolute target then [] else here) (Text.splitText '/' target ++ rest)

/-- A walk that follows at most so many links. -/
def walk (files : Files) (followLast : Bool) :
    Nat → Place → List String → Except FileFault Target
  | 0, here, segments => walkWith files followLast (fun _ _ => .error .tooManyLinks) here segments
  | links + 1, here, segments =>
    walkWith files followLast (walk files followLast links) here segments

def locate (files : Files) (cwd : Place) (followLast : Bool) (path : String) :
    Except FileFault Target :=
  if path.isEmpty then .error .missing
  else if pathLimit ≤ path.utf8ByteSize then .error .nameTooLong
  else
    walk files followLast linkLimit (if Path.isAbsolute path then [] else cwd)
      (Text.splitText '/' path)

/-- What a path leads to; nothing there is a fault. -/
def find (files : Files) (cwd : Place) (path : String) : Except FileFault (Place × Entry) := do
  let target ← files.locate cwd true path
  match target.entry with
  | some entry => pure (target.place, entry)
  | none => .error .missing

def isDirectory (files : Files) (cwd : Place) (path : String) : Bool :=
  match files.find cwd path with
  | .ok (_, .directory) => true
  | _ => false

/-- Whether a path leads to a file that can be executed. -/
def isExecutable (files : Files) (cwd : Place) (path : String) : Bool :=
  match files.find cwd path with
  | .ok (_, .file _ isExecutable) => isExecutable
  | _ => false

/-- Whether a fault only says that nothing is there. -/
def saysMissing : FileFault → Bool
  | .missing => true
  | .notADirectory => true
  | .tooManyLinks => true
  | _ => false

/-- Whether a path leads to something; a name that is too long is a fault. -/
def doesExist (files : Files) (cwd : Place) (path : String) : Except FileFault Bool :=
  match files.find cwd path with
  | .ok _ => .ok true
  | .error fault => if saysMissing fault then .ok false else .error fault

def read (files : Files) (cwd : Place) (path : String) : Except FileFault (List UInt8) := do
  match ← files.find cwd path with
  | (_, .file octets _) => pure octets
  | _ => .error .isADirectory

/-- The tree with a file's octets replaced, or with a new file. -/
def write (files : Files) (cwd : Place) (path : String) (octets : List UInt8) :
    Except FileFault Files := do
  let target ← files.locate cwd true path
  match target.entry with
  | some (.file _ isExecutable) => pure (files.put target.place (.file octets isExecutable))
  | none => pure (files.put target.place (.file octets false))
  | _ => .error .isADirectory

/-- The tree with a new directory; its parent must be there and its name free. -/
def makeDirectory (files : Files) (cwd : Place) (path : String) : Except FileFault Files := do
  let target ← files.locate cwd false path
  match target.entry with
  | none => pure (files.put target.place .directory)
  | some _ => .error .occupied

def remove (files : Files) (cwd : Place) (path : String) : Except FileFault Files := do
  let target ← files.locate cwd false path
  match target.entry with
  | none => .error .missing
  | some .directory => .error .isADirectory
  | some _ => pure (files.erase target.place)

/-- The starts of a path that end before a segment or at the end, shortest first. -/
def stages (path : String) : List String :=
  let segments := Text.splitText '/' path
  (List.range segments.length).map fun count => "/".intercalate (segments.take (count + 1))

/-- The tree with a directory at a path and at every start of it where nothing is. -/
def makeDirectories (files : Files) (cwd : Place) (path : String) : Files :=
  (stages path).foldl
    (fun built stage => (built.makeDirectory cwd stage).toOption.getD built) files

/-- The tree with an entry put at a path, and directories above it.  A link at the path is
followed by a file and replaced by a link. -/
def plant (files : Files) (cwd : Place) (path : String) (entry : Entry) : Files :=
  match entry with
  | .directory => files.makeDirectories cwd path
  | other =>
    let built := files.makeDirectories cwd (Path.parent path)
    match built.locate cwd (!other.isLink) path with
    | .ok target => built.put target.place other
    | .error _ => built

end Files
end Provenance.World
