import Provenance.World.Basic

/-!
Contract: programs that look at and change the file tree by path.

Owns: the operations of `Provenance.World.Files` relative to the current
directory, with faults that name the path.

Does **not** own: what is in the files.
-/

set_option autoImplicit false

namespace Provenance.World.Disk

open Failure (Fault FileFault)

variable {Time : Type}

/-- A path that the operating system can be given. -/
def checked (path : String) : Program Time Unit :=
  if Text.contains '\x00' path then Program.fail (.fault .nullCharacter) else pure ()

def doesExist (path : String) : Program Time Bool := do
  if Text.contains '\x00' path then
    pure false
  else
    let world ← Program.world
    Program.ofRefusal path (world.files.doesExist world.cwd path)

def isDirectory (path : String) : Program Time Bool := do
  let world ← Program.world
  pure (world.files.isDirectory world.cwd path)

def readOctets (path : String) : Program Time (List UInt8) := do
  checked path
  let world ← Program.world
  Program.ofRefusal path (world.files.read world.cwd path)

/-- The text of octets, with a line feed for every line end. -/
def textOf (octets : List UInt8) : Except Fault String :=
  match Text.Utf8.decodeStrict octets with
  | .ok characters => .ok (String.ofList (Text.Utf8.unifyLineEnds characters))
  | .error error => .error (.notText error.message)

def readText (path : String) : Program Time String := do
  let octets ← readOctets path
  Program.ofFault (textOf octets)

/-- Puts a text into a file, which is made if it is not there. -/
def writeText (path text : String) : Program Time Unit := do
  checked path
  let world ← Program.world
  let files ← Program.ofRefusal path (world.files.write world.cwd path (Text.Utf8.encode text))
  Program.change fun current => { current with files := files }

/-- Makes one directory; `mayExist` accepts one that is there. -/
def makeDirectory (mayExist : Bool) (path : String) : Program Time Unit := do
  checked path
  let world ← Program.world
  match world.files.makeDirectory world.cwd path with
  | .ok files => Program.change fun current => { current with files := files }
  | .error fault =>
    if mayExist && fault ≠ .missing && world.files.isDirectory world.cwd path then pure ()
    else Program.fail (.fault (.file fault path))

/-- Makes a directory and those above it that are missing, at most so many. -/
def makeDirectoriesUpTo : Nat → String → Program Time Unit
  | 0, path => makeDirectory true path
  | count + 1, path => do
    match ← Program.attempt (makeDirectory true path) with
    | .ok () => pure ()
    | .error failure =>
      if failure = .fault (.file .missing path) ∧ Path.parent path ≠ path then
        makeDirectoriesUpTo count (Path.parent path)
        makeDirectory true path
      else
        Program.fail failure

/-- Makes a directory and those above it that are missing. -/
def makeDirectories (path : String) : Program Time Unit :=
  makeDirectoriesUpTo (Path.segments path).length path

end Provenance.World.Disk
