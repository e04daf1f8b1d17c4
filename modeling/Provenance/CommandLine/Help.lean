import Provenance.CommandLine.Command

/-!
Contract: the help page of a command.

Owns: `helpText`.

Does **not** own: what the page says, which `Provenance.CommandLine.Command`
lists.
-/

set_option autoImplicit false

namespace Provenance.CommandLine

/-- The widest name that still has its explanation beside it. -/
def widestName : Nat := 30

/-- Names with their explanations: beside them, or below a name that is too wide. -/
def twoColumns (entries : List (String × String)) : List String :=
  let widths := entries.map fun entry => entry.1.length
  let width := min (widths.foldl max 0) widestName
  entries.flatMap fun (name, explanation) =>
    if width < name.length then
      ["  " ++ name, Text.repeated (width + 4) ' ' ++ explanation]
    else
      ["  " ++ Text.padRight width name ++ "  " ++ explanation]

/-- The names of a switch on a help page. -/
def switchNames (switch : Switch) : String :=
  ", ".intercalate (switch.short?.toList ++ [switch.long]) ++ switch.valueName

/-- The help page of a command, line by line. -/
def helpLines (command : Command) : List String :=
  let details := command.details.map ("  " ++ ·)
  let switches := command.switches.map fun switch => (switchNames switch, switch.summary)
  let commands := command.subcommands.map fun (word, subcommand) => (word, subcommand.summary)
  [command.usage, "", "  " ++ command.summary, ""] ++
    (if details.isEmpty then [] else details ++ [""]) ++
    "Options:" :: twoColumns switches ++
    (if commands.isEmpty then [] else ["", "Commands:"] ++ twoColumns commands)

def helpText (command : Command) : String :=
  String.join ((helpLines command).map (· ++ "\n"))

end Provenance.CommandLine
