import Provenance.CommandLine.Words
import Provenance.World.Files

/-!
Contract: what a command line asks for.

Owns:
- `Entry`, what the words of a command that holds others lead to;
- `Request`, what the words of any other command ask for;
- the checks of values and operands, in the order in which they are made.

Does **not** own: doing what is asked.

## The order of checks

Words are taken apart first.  Then a switch that is obeyed before all others is,
then values are checked in the order of the switches, then operands, and last
that there are no more of them.
-/

set_option autoImplicit false

namespace Provenance.CommandLine

open World (Files Place)

/-- How data is shown. -/
structure Manner where
  verbose : Bool := false
  quiet : Bool := false
  format : Option String := none
  deriving DecidableEq, Repr

/-- What a command line can ask for. -/
inductive Request where
  | help (command : Command)
  | describe (directory : String) (strict located table : Bool) (manner : Manner)
  | normalize (urls : List String) (manner : Manner)
  /-- A reference pinned to the record of a directory. -/
  | pin (reference directory : String) (asCommand : Bool) (manner : Manner)
  | writeSettings (force : Bool)
  | showSettings (pretty path : Bool)
  deriving DecidableEq, Repr

/-- What the words of a command that holds others lead to. -/
inductive Entry where
  /-- Nothing was asked for, so the help page is shown as an error. -/
  | nothing (command : Command)
  | help (command : Command)
  | version
  /-- A command with the words behind it, after some switches. -/
  | command (words : Words) (chosen : Command) (rest : List String)
  deriving DecidableEq, Repr

/-- Where the switches that are obeyed at once lead. -/
def eagerEntry? (command : Command) (words : Words) : Option Entry :=
  words.eager?.map fun switch => if switch = .version then .version else .help command

namespace Entry

/-- What the words of a command that holds others lead to.

A word that is no command but is written like a switch is read as one once more
before it is refused. -/
def read (command : Command) (words : List String) : Except UsageError Entry :=
  if words.isEmpty then .ok (.nothing command)
  else do
    let taken ← Words.read command words
    match eagerEntry? command taken with
    | some entry => pure entry
    | none =>
      match taken.operands with
      | [] => throw (.commandMissing command)
      | word :: rest =>
        match command.subcommands.lookup word with
        | some chosen => pure (.command taken chosen rest)
        | none =>
          if Text.startsWith "-" word then
            let again ← Words.read command (word :: rest)
            match eagerEntry? command again with
            | some entry => pure entry
            | none => throw (.noSuchCommand command word)
          else throw (.noSuchCommand command word)

end Entry

/-! ## Checks -/

def formatList : String :=
  ", ".intercalate (Output.Format.all.map fun format => "'" ++ format.name ++ "'")

def checkFormat (command : Command) (value : String) : Except UsageError Unit :=
  match Output.Format.ofName? value with
  | some _ => .ok ()
  | none =>
    .error (.badValue command Switch.format.hint
      (Text.quoted value ++ " is not one of " ++ formatList ++ "."))

def checkDirectory (files : Files) (cwd : Place) (command : Command) (hint path : String) :
    Except UsageError Unit :=
  match files.find cwd path with
  | .ok (_, .file ..) =>
    .error (.badValue command hint ("Directory " ++ Text.quoted path ++ " is a file."))
  | .ok _ => .ok ()
  | .error _ =>
    .error (.badValue command hint ("Directory " ++ Text.quoted path ++ " does not exist."))

def checkSwitch (files : Files) (cwd : Place) (command : Command) (words : Words)
    (switch : Switch) : Except UsageError Unit :=
  match switch, words.value? switch with
  | .format, some value => checkFormat command value
  | .directory, some value => checkDirectory files cwd command switch.hint value
  | _, _ => .ok ()

def checkNone (command : Command) (operands : List String) : Except UsageError Unit :=
  if operands.isEmpty then .ok () else .error (.operandsUnwanted command operands)

def mannerOf (words : Words) : Manner :=
  { verbose := words.has .verbose, quiet := words.has .quiet, format := words.value? .format }

namespace Request

/-- What the words of a command ask for after their values have been checked. -/
def ofWords (files : Files) (cwd : Place) (command : Command) (words : Words) :
    Except UsageError Request :=
  match command with
  | .describe => do
    let directory := words.operands.head?.getD "."
    checkDirectory files cwd command "'[DIRECTORY]'" directory
    checkNone command (words.operands.drop 1)
    pure (.describe directory (words.has .strict) (words.has .located) (words.has .table)
      (mannerOf words))
  | .normalize =>
    if words.operands.isEmpty then throw (.operandMissing command "URLS...")
    else pure (.normalize words.operands (mannerOf words))
  | .pin =>
    match words.operands with
    | [] => throw (.operandMissing command "REFERENCE")
    | reference :: rest => do
      let directory := (words.value? .directory).getD "."
      checkDirectory files cwd command Switch.directory.hint directory
      checkNone command rest
      pure (.pin reference directory (words.has .asCommand) (mannerOf words))
  | .writeSettings => do
    checkNone command words.operands
    pure (.writeSettings (words.has .force))
  | .showSettings => do
    checkNone command words.operands
    pure (.showSettings (words.has .pretty) (words.has .path))
  | .root => pure (.help .root)
  | .settings => pure (.help .settings)

def read (files : Files) (cwd : Place) (command : Command) (words : List String) :
    Except UsageError Request := do
  let words ← Words.read command words
  if words.eager?.isSome then
    pure (.help command)
  else
    words.order.forM (checkSwitch files cwd command words)
    ofWords files cwd command words

end Request
end Provenance.CommandLine
