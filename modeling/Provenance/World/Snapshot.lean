import Provenance.Data.Part
import Provenance.Json.Reader
import Provenance.Text.Digits
import Provenance.World.Basic

/-!
Contract: a world described by a document.

Owns:
- `answerOf`, the reading of one scripted answer;
- `plantOne`, the reading of one entry of the file tree;
- `Snapshot.extend`, a world with what a document adds to it.

Does **not** own: the form of the document's text.

## The parts of a document

`fs` lists entries of the file tree, `env` lists variables, `git` maps the
arguments of calls to answers, and `cwd` names the directory to work in.  Paths
are taken from the directory of the world that is extended.  Parts that are not
there add nothing.
-/

set_option autoImplicit false

namespace Provenance.World.Snapshot

open Data (Value Scalar Entries)

def octetsOfHex : List Char → List UInt8
  | first :: second :: rest =>
    match Json.hexDigit? first, Json.hexDigit? second with
    | some high, some low => UInt8.ofNat (Text.positional 16 [high, low]) :: octetsOfHex rest
    | _, _ => []
  | _ => []

def troubleOf? : String → Option Git.Trouble
  | "timeout" => some .timeout
  | "filenotfound" => some .missing
  | "notadirectory" => some .notADirectory
  | "permission" => some .denied
  | "interrupt" => some .interrupt
  | _ => none

/-- The octets that are described as a text or in hexadecimal digits. -/
def octetsOf (textName : String) (value : Value) : List UInt8 :=
  match (value.entry? "hex").bind Value.text? with
  | some digits => octetsOfHex digits.toList
  | none => Text.Utf8.encode (value.textOr textName "")

/-- The answer that a value describes: what is printed, or all of it by name. -/
def answerOf (value : Value) : Git.Answer Value :=
  match value with
  | .scalar (.text output) => { output := Text.Utf8.encode output, takes := .int 0 }
  | other =>
    {
      output := octetsOf "out" other
      errors := other.textOr "err" ""
      code := ((other.entry? "code").bind Value.int?).getD 0
      takes := (other.entry? "takes").getD (.int 0)
      hangs := ((other.entry? "hang").bind Value.bool?).getD false
      trouble := (other.entry? "raise").bind fun word => word.text?.bind troubleOf?
    }

/-- The answer to arguments that no document speaks of. -/
def unknownArguments : Git.Answer Value :=
  { code := 128, takes := .int 0 }

def extendScript (script : Git.Script Value) (entries : Entries) : Git.Script Value :=
  entries.foldl (fun built (key, value) => built.set key.display (answerOf value)) script

def plantOne (cwd : Place) (files : Files) (description : Value) : Files :=
  match description.items.filterMap Value.text? with
  | ["dir", path] => files.plant cwd path .directory
  | ["file", path, text] => files.plant cwd path (.file (Text.Utf8.encode text) false)
  | ["hex", path, digits] => files.plant cwd path (.file (octetsOfHex digits.toList) false)
  | ["exec", path] => files.plant cwd path (.file [] true)
  | ["link", path, target] => files.plant cwd path (.link target)
  | _ => files

def setOne (environment : Environment) (description : Value) : Environment :=
  match description.items.filterMap Value.text? with
  | [name, value] => environment.set name value
  | _ => environment

/-- A file tree with a directory, and the directory's place. -/
def enter (files : Files) (cwd : Place) (path : String) : Files × Place :=
  let files := files.makeDirectories cwd path
  match files.find cwd path with
  | .ok (place, .directory) => (files, place)
  | _ => (files, cwd)

/-- An empty world, in which every call fails. -/
def empty : World Value :=
  {
    files := {}
    cwd := []
    environment := []
    script := { otherwise := unknownArguments }
    clock := .int 0
  }

/-- A world with what a document adds to it. -/
def extend (world : World Value) (document : Value) : World Value :=
  let files := (document.itemsOf "fs").foldl (plantOne world.cwd) world.files
  let (files, cwd) := enter files world.cwd (document.textOr "cwd" ".")
  { world with
    files := files
    cwd := cwd
    environment := (document.itemsOf "env").foldl setOne world.environment
    script := extendScript world.script (document.entriesOf "git") }

end Provenance.World.Snapshot
