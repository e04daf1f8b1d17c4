import Provenance.Failure.Shown
import Provenance.Journal.Layout
import Provenance.Settings.Defaults
import Provenance.Settings.Entry
import Provenance.Text.Case

/-!
Contract: which log records stand on standard error, and how.

Owns:
- `configure`, the settings' say in it;
- `errorOutput`, standard error as it follows from a trace.

Does **not** own: what is logged.

## Before anything is configured

Until the layout is set, warnings and worse are shown by their message alone.
-/

set_option autoImplicit false

namespace Provenance.Journal

open Data (Value Scalar Shared)
open Failure (Fault)
open Settings (entryOr)
open World (Level LogRecord Event)

/-- The layout of a settings value that counts as none. -/
def plainLayout : String := "%(message)s"

/-- The layout of all details, whose name a level can bear by mistake. -/
def detailedLayout : String := "%(levelname)s:%(name)s:%(message)s"

/-- The level of a word; an unknown word stands for warnings. -/
def levelOfWord (word : String) : Except Fault Level :=
  match Text.upperAscii word with
  | "DEBUG" => .ok Level.debug
  | "INFO" => .ok Level.info
  | "WARN" => .ok Level.warning
  | "WARNING" => .ok Level.warning
  | "ERROR" => .ok Level.error
  | "CRITICAL" => .ok Level.critical
  | "FATAL" => .ok Level.critical
  | "NOTSET" => .ok Level.notSet
  | "BASIC_FORMAT" => .error (.unknownLevel (Text.quoted detailedLayout))
  | _ => .ok Level.warning

/-- The level of a settings value; null leaves the level as it is. -/
def levelOf (value : Value) : Except Fault Level :=
  match value with
  | .scalar (.text word) => levelOfWord word
  | .scalar (.int number) => .ok number
  | .scalar (.bool flag) => .ok (if flag then 1 else 0)
  | .scalar .null => .ok Level.warning
  | other => other.shownInspected >>= fun text => .error (.notALevel text)

/-- The layout of a settings value: a text that shows some field. -/
def layoutOf (value : Value) : Except Fault String :=
  if value.isTruthy then
    match value with
    | .scalar (.text layout) =>
      if accepts layout.toList then .ok layout else .error (.badRecordFormat layout)
    | .scalar (.bytes _) => .error .octetsMatched
    | other => .error (.notMatchable other.kind)
  else .ok plainLayout

/-- What the settings say about the log: the least level that is shown, and the layout. -/
def configured (settings : Shared) : Except Fault (Level × String) := do
  let settings := if settings.isTruthy then settings else .plain Settings.defaults
  let part ← entryOr "logging" (.dict []) settings
  let level ← entryOr "level" (.text "WARNING") part
  let format ← entryOr "format" (.text "%(levelname)s: %(message)s") part
  let layout ← layoutOf format.value
  let level ← levelOf level.value
  pure (level, layout)

def configure {Time : Type} (settings : Shared) : Program Time Unit := do
  let (level, layout) ← Program.ofFault (configured settings)
  Program.record (.logShown level layout)

/-- How records are shown: from which level on, and in which layout. -/
structure Display where
  level : Level := Level.warning
  layout : String := plainLayout
  deriving DecidableEq, Repr

namespace Display

/-- The line of a record that is shown.  Records of no level never are. -/
def shown (display : Display) (record : LogRecord) : String :=
  if 0 < record.level ∧ display.level ≤ record.level then
    match line? display.layout record with
    | some line => line ++ "\n"
    | none => ""
  else ""

/-- The display after an event, beside what the event puts on standard error. -/
def step {Time : Type} (display : Display) : Event Time → Display × String
  | .logged record => (display, display.shown record)
  | .logShown level layout => (⟨level, layout⟩, "")
  | .logLevel level => ({ display with level := level }, "")
  | .reported text => (display, text)
  | .called _ => (display, "")
  | .printed _ => (display, "")

def output {Time : Type} (display : Display) : List (Event Time) → String
  | [] => ""
  | event :: rest =>
    let (display, text) := display.step event
    text ++ display.output rest

end Display

def errorOutput {Time : Type} (trace : List (Event Time)) : String :=
  Display.output {} trace

end Provenance.Journal
