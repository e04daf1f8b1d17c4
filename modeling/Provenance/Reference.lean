import Provenance.Data.Value
import Provenance.Failure.Basic
import Provenance.Text.Blank

/-!
Contract: references to buildable and invokable units.

Owns:
- `Variant`, with the two variants that can be parsed and pinned;
- `Reference`, its text and its fields;
- `parse`, the reading of a text.

Does **not** own: pinning, which `Provenance.Pin` does.

## The text of a reference

A reference is written as its location, a `+` and its name.  The location is a
remote with an optional `:` and selector, a local path, the name of an import, or
nothing for the current directory.  Of several given fields the import wins over
the remote and the remote over the local path.
-/

set_option autoImplicit false

namespace Provenance

open Data (Value)
open Failure (Fault)

/-- What a reference refers to.  Only targets and commands can be parsed and pinned. -/
inductive Variant where
  | target
  | command
  | other (kind : String) (typeName : String)
  deriving DecidableEq, Repr

namespace Variant

def kind : Variant → String
  | .target => "target"
  | .command => "command"
  | .other kind _ => kind

def ofKind? : String → Option Variant
  | "target" => some .target
  | "command" => some .command
  | _ => none

end Variant

/-- A named unit with its location. -/
structure Reference where
  variant : Variant := .target
  name : String
  gitUrl : String := ""
  tag : String := ""
  /-- The directory, where the location is local. -/
  localPath : String := ""
  importRef : String := ""
  deriving DecidableEq, Repr

namespace Reference

def isLocalInternal (reference : Reference) : Bool :=
  reference.gitUrl.isEmpty && reference.importRef.isEmpty &&
    (reference.localPath.isEmpty || reference.localPath == ".")

def location (reference : Reference) : List Char :=
  if reference.importRef.isEmpty = false then reference.importRef.toList
  else if reference.gitUrl.isEmpty = false then
    if reference.tag.isEmpty then reference.gitUrl.toList
    else reference.gitUrl.toList ++ ':' :: reference.tag.toList
  else if reference.isLocalInternal then []
  else reference.localPath.toList

def text (reference : Reference) : String :=
  String.ofList (reference.location ++ '+' :: reference.name.toList)

/-- The fields by name, in order, with the text as the last one. -/
def toValue (reference : Reference) : Value :=
  .record [
    ("kind", .text reference.variant.kind),
    ("name", .text reference.name),
    ("git_url", .text reference.gitUrl),
    ("tag", .text reference.tag),
    ("local_path", .text reference.localPath),
    ("import_ref", .text reference.importRef),
    ("reference", .text reference.text)
  ]

def withRemote (reference : Reference) (gitUrl tag localPath : String) : Reference :=
  { reference with gitUrl := gitUrl, tag := tag, localPath := localPath }

/-- What a location can be. -/
inductive Location where
  | here
  | localPath (path : List Char)
  | importRef (name : List Char)
  | remote (gitUrl tag : List Char)
  deriving DecidableEq, Repr

def startsLocal : List Char → Bool
  | head :: _ => head = '.' || head = '/' || head = '~'
  | [] => false

/-- Whether a location has none of the characters of a remote. -/
def isPlainName (location : List Char) : Bool :=
  !location.contains '/' && !location.contains '.' && !location.contains ':'

/-- A remote location: the last `:` separates the selector unless a `/` follows it. -/
def Location.ofRemote (location : List Char) : Location :=
  match Text.cutLast? ':' location with
  | some (head, tail) =>
    if head.isEmpty || tail.contains '/' then .remote location []
    else .remote head tail
  | none => .remote location []

def Location.ofText (location : List Char) : Location :=
  if location.isEmpty then .here
  else if startsLocal location then .localPath location
  else if isPlainName location then .importRef location
  else .ofRemote location

def at_ (variant : Variant) (name : List Char) (location : Location) : Reference :=
  let plain : Reference := { variant := variant, name := String.ofList name }
  match location with
  | .here => { plain with localPath := "." }
  | .localPath path => { plain with localPath := String.ofList path }
  | .importRef imported => { plain with importRef := String.ofList imported }
  | .remote gitUrl tag => { plain with gitUrl := String.ofList gitUrl, tag := String.ofList tag }

/-- The reference that a text denotes: its name is what follows the last `+`. -/
def parse (variant : Variant) (text : String) : Except Fault Reference :=
  match Text.cutLast? '+' (Text.trim text.toList) with
  | some (location, name) =>
    if name.isEmpty then .error (.notAReference text)
    else .ok (at_ variant name (.ofText location))
  | none => .error (.notAReference text)

/-- The reference that a text denotes as the variant of a word; without a word there is none. -/
def parseAs (kind : Option String) (text : String) : Except Fault Reference :=
  match kind.bind Variant.ofKind? with
  | some variant => parse variant text
  | none => .error (.unknownVariant (kind.getD "None"))

end Reference
end Provenance
