import Provenance.Assembly.Configured
import Provenance.CommandLine.Help
import Provenance.CommandLine.Report
import Provenance.CommandLine.Request
import Provenance.Journal.Basic
import Provenance.Output.Choice
import Provenance.Pin
import Provenance.Settings.File
import Provenance.Table.Basic

/-!
Contract: a run of the command line.

Owns:
- `describe`, `normalize`, `pin`, `writeSettings` and `showSettings`, what
  the commands do;
- `run`, from words to the exit code.

Does **not** own: reading words, and how records are published.

## Before a command

The settings are read and the log is set up as soon as the first word is known
to be a command, so what they have to say precedes what is wrong with the words
behind it.
-/

set_option autoImplicit false

namespace Provenance.CommandLine

open Assembly (Service)
open Data (Value)
open Failure (Fault Problem)
open Settings (entryOr)

def version : String := "0.1.0"

/-- The width of the console that tables are laid out for. -/
def consoleWidth : Nat := 80

section Programs

/-- Programs whose limits are settings values. -/
abbrev Action := Program Value

/-! ## Commands that produce records -/

/-- The record of a directory with its last gap, as the settings have it made. -/
def assembled (directory : String) : Action (Record × Option Problem) := do
  let settings ← Settings.load
  let service ← Program.ofFault (Service.ofSettings none settings)
  let (service, record) ← service.assemble directory none
  pure (record, service.warning?)

/-- The problem that a strict run ends with: the last gap, with all fields that are missing. -/
def strictProblem? (strict : Bool) (gap : Option Problem) (missing : List String) :
    Option Problem :=
  if strict then
    gap.map fun gap => .partialSuccess ("Incomplete git metadata: " ++ gap.message) missing
  else
    none

def warnOfGap (progress : Progress) (gap : Option Problem) : Action Unit :=
  match gap with
  | some gap => progress.warn gap.message
  | none => pure ()

def printTable (record : Record) : Action Unit := do
  let lines ← Program.ofFault ((Table.ofRecord record "").lines consoleWidth)
  lines.forM Program.printLine

def describe (directory : String) (strict located table : Bool) (progress : Progress) :
    Action Result := do
  progress.say ("Detecting git metadata for " ++ directory ++ "...")
  let (record, gap) ← assembled directory
  warnOfGap progress gap
  let problem := strictProblem? strict gap record.missingFields
  let shown := if located then record.located else record
  if table then
    printTable shown
    match problem with
    | some problem => Program.fail (.problem problem)
    | none => pure .done
  else
    pure (.report (.of [shown.toValue] problem))

def canonicalRecord (url : String) : Value :=
  .record [("url", .text url), ("git_url", .text (Remote.canonical url))]

def normalize (urls : List String) : Action Result :=
  pure (.report (.of (urls.map canonicalRecord) none))

/-- A reference beside what it was before it was pinned. -/
def pinnedRecord (reference pinned : Reference) : Value :=
  .record [
    ("reference", .text reference.text),
    ("rewritten", .text pinned.text),
    ("kind", .text pinned.variant.kind),
    ("name", .text pinned.name),
    ("git_url", .text pinned.gitUrl),
    ("tag", .text pinned.tag)
  ]

/-- Pins a reference to the record of a directory. -/
def pinReference (reference : Reference) (directory : String) (progress : Progress) :
    Action Result := do
  let (record, gap) ← assembled directory
  warnOfGap progress gap
  let pinned ← Program.ofFault (reference.pin (some record))
  if pinned.isKept then
    progress.warn "No remote detected, reference left unchanged"
  pure (.report (.of [pinnedRecord reference pinned.reference] none))

/-- Pins the reference that a text denotes; a text that denotes none is misuse. -/
def pin (text directory : String) (asCommand : Bool) (progress : Progress) :
    Action Result :=
  match Reference.parse (if asCommand then .command else .target) text with
  | .ok reference => pinReference reference directory progress
  | .error fault => pure (.misuse (.badValue .pin "REFERENCE" fault.message))

/-- The format that is asked for: by name, by the environment, by the settings. -/
def chosenFormat (named : Option String) : Action Value := do
  let settings ← Settings.load
  let part ← Program.ofFault (entryOr "output" (.dict []) settings)
  let default ← Program.ofFault (entryOr "format" (.text Output.Format.jsonl.name) part)
  match named with
  | some name => pure (.text name)
  | none => do
    let world ← Program.world
    Program.ofFault (Output.choose world.environment default.value)

def produce (manner : Manner) (command : Progress → Action Result) : Action Int := do
  let format ← chosenFormat manner.format
  let progress ← Progress.current none (if manner.verbose then some true else none)
  conclude progress manner.quiet format (command progress)

/-! ## Commands about the settings -/

def pathObject (path : String) : Value :=
  .record [("config_path", .text path)]

def printPath (path : String) : Action Unit := do
  let line ← Program.ofFault (Json.write .asciiLine (pathObject path))
  Program.printLine line

/-- Writes the default settings, over a file that is there only if that is asked for. -/
def writeSettings (force : Bool) : Action Int := do
  let path ← Settings.locate
  if (← World.Disk.doesExist path) && !force then
    Program.reportLine
      ("Configuration already exists at " ++ path ++ ". Use --force to overwrite.")
  else
    let saved ← Settings.save Settings.defaults (some path)
    printPath saved
  pure Failure.ExitCode.success

/-- Shows the settings that hold, or where their file is. -/
def showSettings (pretty path : Bool) : Action Int := do
  if path then
    printPath (← Settings.locate)
  else
    let settings ← Settings.load
    let text ← Program.ofFault (Json.write (if pretty then .pretty else .line) settings.value)
    Program.printLine text
  pure Failure.ExitCode.success

/-! ## Runs -/

/-- Shows the help page of a command that was asked for. -/
def showHelp (command : Command) : Action Int := do
  Program.print (helpText command)
  pure Failure.ExitCode.success

def obey : Request → Action Int
  | .help command => showHelp command
  | .describe directory strict located table manner =>
    produce manner (describe directory strict located table)
  | .normalize urls manner => produce manner fun _ => normalize urls
  | .pin reference directory asCommand manner =>
    produce manner (pin reference directory asCommand)
  | .writeSettings force => writeSettings force
  | .showSettings pretty path => showSettings pretty path

/-- Reads the words of a command and does what they ask for. -/
def runCommand (command : Command) (words : List String) : Action Int := do
  let world ← Program.world
  match Request.read world.files world.cwd command words with
  | .ok request => obey request
  | .error error => reportMisuse error

def prepare (debug : Bool) : Action Unit := do
  let settings ← Settings.load
  Journal.configure settings
  if debug then
    Program.record (.logLevel World.Level.debug)

/-- Follows the words of a command that holds others.  The commands below it are run by `next`,
which is given the switches, the chosen command and its words. -/
def enter (command : Command) (words : List String)
    (next : Words → Command → List String → Action Int) : Action Int :=
  match Entry.read command words with
  | .error error => reportMisuse error
  | .ok (.nothing command) => do
    Program.record (.reported (helpText command))
    pure Failure.ExitCode.usageError
  | .ok (.help command) => showHelp command
  | .ok .version => do
    Program.printLine ("gitmeta, version " ++ version)
    pure Failure.ExitCode.success
  | .ok (.command switches chosen rest) => next switches chosen rest

/-- Runs the program on the words of its command line and gives its exit code. -/
def run (words : List String) : Action Int :=
  enter .root words fun switches chosen rest => do
    prepare (switches.has .debug)
    if chosen = .settings then
      enter .settings rest fun _ chosen rest => runCommand chosen rest
    else
      runCommand chosen rest

end Programs
end Provenance.CommandLine
