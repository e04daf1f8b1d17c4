import Provenance.Data.Shared
import Provenance.Failure.Fault
import Provenance.Text.Case
import Provenance.World.Environment

/-!
Contract: settings replaced by variables of the environment.

Owns:
- `assignments`, the parts and the text of every variable that names a setting;
- `coerce`, the value that a variable's text stands for;
- `assigned`, the walk to the entry that a variable names;
- `override`, all variables in their order.

Does **not** own: files of settings.

## The walk

A variable's name is cut at its underscores.  At each level the key that covers
most of the parts is taken, the first one among equals; keys may contain
underscores themselves.  The walk ends with the last part at the entry that is
replaced, whatever it holds.  It ends without effect where no key fits or where
parts are left over at an entry that is no dictionary.  An empty key never fits.

The walk follows links.  So one dictionary changes, the last one of the walk, at all
the places where it stands.
-/

set_option autoImplicit false

namespace Provenance.Settings

open Data (Scalar Value Entries Shared Cells)
open Failure (Fault)
open World (Environment)

def variableStart : String := "GITMETA_"

/-- The variable that names the settings file and no setting. -/
def fileVariable : String := "GITMETA_CONFIG"

def parts (text : String) : List String :=
  Text.splitText '_' text

/-- The parts of the setting that a variable names. -/
def variableParts? (name : String) : Option (List String) :=
  if Text.startsWith variableStart name && name ≠ fileVariable then
    some (parts (Text.lower (String.ofList (name.toList.drop variableStart.length))))
  else
    none

/-- The variables that name settings, in order, with their texts. -/
def assignments (environment : Environment) : List (List String × String) :=
  environment.filterMap fun (name, text) => (variableParts? name).map fun parts => (parts, text)

def trueWords : List String := ["true", "yes", "on"]

def falseWords : List String := ["false", "no", "off"]

/-- The value that a variable's text stands for: a truth value, a whole number, or the text. -/
def coerce (text : String) : Except Fault Value :=
  if trueWords.contains (Text.lower text) then .ok (.bool true)
  else if falseWords.contains (Text.lower text) then .ok (.bool false)
  else if Text.isDigitText text then
    match Text.readInteger text with
    | .number value => .ok (.int value)
    | .malformed => .error (.notAnInteger (Text.quoted text))
    | .tooLong digits => .error (.tooManyDigits digits)
  else .ok (.text text)

/-- The texts that are the keys of a dictionary; another key is a fault. -/
def textKeys : Entries → Except Fault (List String)
  | [] => .ok []
  | (.text key, _) :: rest => (textKeys rest).map (key :: ·)
  | (.bytes _, _) :: _ => .error .octetsCutAtText
  | (other, _) :: _ => .error (.noOperation other.kind "split")

/-- Of the best key so far and another, the one that covers more; the earlier one if they are
equal. -/
def better (wanted : List String) (best : Option (String × Nat)) (key : String) :
    Option (String × Nat) :=
  let own := parts key
  if own.isPrefixOf wanted && own.length > (best.map Prod.snd).getD 0 then some (key, own.length)
  else best

/-- The key that covers most of the wanted parts, with their number. -/
def bestKey? (wanted : List String) (keys : List String) : Option (String × Nat) :=
  match keys.foldl (better wanted) none with
  | some (key, count) => if key.isEmpty then none else some (key, count)
  | none => none

/-- What a walk changes: the dictionary that it begins at, or the one in a cell. -/
structure Change where
  cell : Option Nat
  entries : Entries
  deriving Repr

/-- The change for the entries around an inner dictionary at a key: an inner one that is in no cell
changes with them. -/
def Change.outside (key : String) (entries : Entries) (change : Change) : Change :=
  match change.cell with
  | some _ => change
  | none => ⟨none, Entries.insert (.text key) (.dict change.entries) entries⟩

/-- The change for a link to a dictionary: it is the one in the cell that changes. -/
def Change.atCell (cell : Nat) (change : Change) : Change :=
  match change.cell with
  | some _ => change
  | none => ⟨some cell, change.entries⟩

/-- What the walk for some parts changes, of which each level uses up at least one. -/
def assignWithin (cells : Cells) (value : Value) :
    Nat → List String → Entries → Except Fault (Option Change)
  | 0, _, _ => .ok none
  | levels + 1, wanted, entries =>
    match textKeys entries with
    | .error fault => .error fault
    | .ok keys =>
      match bestKey? wanted keys with
      | none => .ok none
      | some (key, count) =>
        if count = wanted.length then .ok (some ⟨none, Entries.insert (.text key) value entries⟩)
        else
          match Entries.get? entries key with
          | some (.dict inner) =>
            (assignWithin cells value levels (wanted.drop count) inner).map
              (Option.map (Change.outside key entries))
          | some (.link cell kind) =>
            match cells.resolve (.link cell kind) with
            | .dict inner =>
              (assignWithin cells value levels (wanted.drop count) inner).map
                (Option.map (Change.atCell cell))
            | _ => .ok none
          | _ => .ok none

/-- The settings after a change of the dictionary that they are, or of a cell. -/
def Change.apply (settings : Shared) (change : Change) : Shared :=
  match change.cell with
  | some cell =>
    { settings with cells := settings.cells.setIfInBounds cell (.dict change.entries) }
  | none => settings.part (.dict change.entries)

/-- The settings with a value at the entry that the parts name, if they name one. -/
def assigned (settings : Shared) (wanted : List String) (value : Value) : Except Fault Shared :=
  match settings.root with
  | .dict entries =>
    (assignWithin settings.cells value wanted.length wanted entries).map fun change =>
      (change.map (Change.apply settings)).getD settings
  | other => .error (.noOperation other.kind "keys")

def overrideOne (settings : Shared) (wanted : List String) (text : String) :
    Except Fault Shared :=
  match coerce text with
  | .error fault => .error fault
  | .ok value => assigned settings wanted value

def overrideAll (settings : Shared) : List (List String × String) → Except Fault Shared
  | [] => .ok settings
  | (wanted, text) :: rest =>
    match overrideOne settings wanted text with
    | .error fault => .error fault
    | .ok settings => overrideAll settings rest

def override (environment : Environment) (settings : Shared) : Except Fault Shared :=
  overrideAll settings (assignments environment)

end Provenance.Settings
