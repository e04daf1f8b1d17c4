import Provenance.CommandLine.Command

/-!
Contract: what can be wrong with the words of a command line.

Owns:
- `UsageError`, the causes with their messages;
- `UsageError.text`, the whole report.

Does **not** own: what can go wrong when a command runs.

## Where usage is shown

A report begins with the usage of the command it is about.  Only a missing or
superfluous value of a switch is reported by itself.
-/

set_option autoImplicit false

namespace Provenance.CommandLine

/-- What can be wrong with a command line. -/
inductive UsageError where
  | noSuchSwitch (command : Command) (name : String)
  | valueMissing (name : String)
  | valueUnwanted (name : String)
  | noSuchCommand (command : Command) (word : String)
  | commandMissing (command : Command)
  | operandMissing (command : Command) (name : String)
  | operandsUnwanted (command : Command) (words : List String)
  /-- A value is refused; `hint` names the switch or operand as it is shown. -/
  | badValue (command : Command) (hint : String) (reason : String)
  deriving DecidableEq, Repr

namespace UsageError

def command? : UsageError → Option Command
  | .noSuchSwitch command _ => some command
  | .valueMissing _ => none
  | .valueUnwanted _ => none
  | .noSuchCommand command _ => some command
  | .commandMissing command => some command
  | .operandMissing command _ => some command
  | .operandsUnwanted command _ => some command
  | .badValue command _ _ => some command

def message : UsageError → String
  | .noSuchSwitch _ name => "No such option " ++ Text.quoted name ++ "."
  | .valueMissing name => "Option " ++ Text.quoted name ++ " requires an argument."
  | .valueUnwanted name => "Option " ++ Text.quoted name ++ " does not take a value."
  | .noSuchCommand _ word => "No such command " ++ Text.quoted word ++ "."
  | .commandMissing _ => "Missing command."
  | .operandMissing _ name => "Missing argument '" ++ name ++ "'."
  | .operandsUnwanted _ words =>
    "Got unexpected extra argument" ++ (if words.length = 1 then "" else "s") ++ " (" ++
      " ".intercalate words ++ ")"
  | .badValue _ hint reason => "Invalid value for " ++ hint ++ ": " ++ reason

/-- The report of an error, line by line. -/
def lines (error : UsageError) : List String :=
  let usage :=
    match error.command? with
    | some command =>
      [command.usage, "Try '" ++ command.path ++ " " ++ Switch.help.long ++ "' for help.", ""]
    | none => []
  usage ++ ["Error: " ++ error.message]

def text (error : UsageError) : String :=
  String.join (error.lines.map (· ++ "\n"))

end UsageError
end Provenance.CommandLine
