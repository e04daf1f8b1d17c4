import Provenance.Output.Format
import Provenance.Text.Quoted

/-!
Contract: the commands and their switches.

Owns:
- `Command`, the tree of commands with their names and usage;
- `Switch`, the options of the command line;
- `Command.switches`, which command takes which.

Does **not** own: reading words, and what a command does.
-/

set_option autoImplicit false

namespace Provenance.CommandLine

/-- The commands.  `root` and `settings` only hold other commands. -/
inductive Command where
  | root
  | describe
  | normalize
  | pin
  | settings
  | writeSettings
  | showSettings
  deriving DecidableEq, Repr

/-- The options of the command line. -/
inductive Switch where
  | version
  | debug
  | help
  | strict
  | located
  | table
  | verbose
  | quiet
  | format
  | directory
  | asCommand
  | force
  | pretty
  | path
  deriving DecidableEq, Repr

namespace Switch

def long : Switch → String
  | .version => "--version"
  | .debug => "--debug"
  | .help => "--help"
  | .strict => "--strict"
  | .located => "--clone"
  | .table => "--table"
  | .verbose => "--verbose"
  | .quiet => "--quiet"
  | .format => "--format"
  | .directory => "--dir"
  | .asCommand => "--command"
  | .force => "--force"
  | .pretty => "--pretty"
  | .path => "--path"

def letter? : Switch → Option Char
  | .verbose => some 'v'
  | .quiet => some 'q'
  | .format => some 'f'
  | .directory => some 'd'
  | _ => none

def takesValue : Switch → Bool
  | .format => true
  | .directory => true
  | _ => false

def isEager : Switch → Bool
  | .version => true
  | .help => true
  | _ => false

def short? (switch : Switch) : Option String :=
  switch.letter?.map fun letter => String.ofList ['-', letter]

def hint (switch : Switch) : String :=
  " / ".intercalate ((switch.short?.toList ++ [switch.long]).map fun name => "'" ++ name ++ "'")

/-- What a value is called on a help page. -/
def valueName : Switch → String
  | .format => " [" ++ "|".intercalate (Output.Format.all.map Output.Format.name) ++ "]"
  | .directory => " DIRECTORY"
  | _ => ""

/-- What a switch does, for a help page. -/
def summary : Switch → String
  | .version => "Show the version and exit."
  | .debug => "Enable debug logging"
  | .help => "Show this message and exit."
  | .strict => "Exit with an error if any field could not be detected"
  | .located => "Only output location-identifying fields"
  | .table => "Display as formatted table"
  | .verbose => "Force progress output even when piped"
  | .quiet => "Suppress data output, show only progress"
  | .format => "Output format (default: jsonl, or from GITMETA_FORMAT env)"
  | .directory => "Directory whose git metadata is applied (default: current directory)"
  | .asCommand => "Treat REFERENCE as a command instead of a target"
  | .force => "Overwrite an existing configuration file"
  | .pretty => "Display as formatted JSON instead of single-line JSONL"
  | .path => "Show the config file path being used"

end Switch

namespace Command

def path : Command → String
  | .root => "gitmeta"
  | .describe => "gitmeta meta"
  | .normalize => "gitmeta normalize"
  | .pin => "gitmeta rewrite"
  | .settings => "gitmeta config"
  | .writeSettings => "gitmeta config init"
  | .showSettings => "gitmeta config show"

/-- The switches of a command in the order in which they are listed. -/
def switches : Command → List Switch
  | .root => [.version, .debug, .help]
  | .describe => [.strict, .located, .table, .verbose, .quiet, .format, .help]
  | .normalize => [.quiet, .format, .help]
  | .pin => [.directory, .asCommand, .verbose, .quiet, .format, .help]
  | .settings => [.help]
  | .writeSettings => [.force, .help]
  | .showSettings => [.pretty, .path, .help]

/-- The commands that a command holds, by their words, in order. -/
def subcommands : Command → List (String × Command)
  | .root =>
    [("config", .settings), ("meta", .describe), ("normalize", .normalize), ("rewrite", .pin)]
  | .settings => [("init", .writeSettings), ("show", .showSettings)]
  | _ => []

def isGroup (command : Command) : Bool :=
  !command.subcommands.isEmpty

def operands : Command → String
  | .root => " COMMAND [ARGS]..."
  | .describe => " [DIRECTORY]"
  | .normalize => " URLS..."
  | .pin => " REFERENCE"
  | .settings => " COMMAND [ARGS]..."
  | .writeSettings => ""
  | .showSettings => ""

def usage (command : Command) : String :=
  "Usage: " ++ command.path ++ " [OPTIONS]" ++ command.operands

/-- What a command does, in one sentence. -/
def summary : Command → String
  | .root => "gitmeta - Git metadata detection and reference pinning."
  | .describe => "Show git metadata for DIRECTORY (default: current directory)."
  | .normalize => "Print the canonical host/path form of each remote URL."
  | .pin => "Rewrite REFERENCE to point at the repository revision of --dir."
  | .settings => "Configuration management commands."
  | .writeSettings => "Write the default configuration file."
  | .showSettings => "Show the current configuration with all merges applied."

/-- What else is to be said about a command, line by line. -/
def details : Command → List String
  | .root =>
    [
      "Detects where a directory lives in version control and rewrites build",
      "references so they point at a specific repository revision."
    ]
  | _ => []

def findLong? (command : Command) (name : String) : Option Switch :=
  command.switches.find? fun switch => switch.long == name

def findLetter? (command : Command) (letter : Char) : Option Switch :=
  command.switches.find? fun switch => switch.letter? == some letter

end Command
end Provenance.CommandLine
