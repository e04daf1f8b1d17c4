import Provenance.Failure.Basic
import Provenance.Git.Script
import Provenance.World.Environment
import Provenance.World.Files
import Provenance.World.Time

/-!
Contract: all that a program can see and change.

Owns:
- `World`, with the trace of what has happened;
- `Program`, a step from world to world that may fail;
- the primitive programs and the views of a trace.

Does **not** own: any rule of the domain.

## Why there is a trace

Calls of the version control program, log records and printed text are appended
to one trace.  What was called, what was logged and what stands on a stream are
views of it, so the order between them is never lost, and a failing program
leaves behind what it did before.
-/

set_option autoImplicit false

namespace Provenance.World

open Failure (Fault)

/-- The importance of a log record. -/
abbrev Level := Int

namespace Level

def notSet : Level := 0

def debug : Level := 10

def info : Level := 20

def warning : Level := 30

def error : Level := 40

def critical : Level := 50

def name (level : Level) : String :=
  if level = 10 then "DEBUG"
  else if level = 20 then "INFO"
  else if level = 30 then "WARNING"
  else if level = 40 then "ERROR"
  else if level = 50 then "CRITICAL"
  else if level = 0 then "NOTSET"
  else "Level " ++ toString level

end Level

/-- One record of the log. -/
structure LogRecord where
  level : Level
  logger : String
  message : String
  deriving DecidableEq, Repr

/-- One call of the version control program. -/
structure Call (Time : Type) where
  command : List String
  directory : String
  limit : Time
  start : Time

/-- What can happen in a world. -/
inductive Event (Time : Type) where
  | called (call : Call Time)
  | logged (record : LogRecord)
  /-- From here on, log records of a level and above are shown in a layout. -/
  | logShown (level : Level) (layout : String)
  | logLevel (level : Level)
  | printed (text : String)
  | reported (text : String)

end World

/-- All that a program can see and change. -/
structure World (Time : Type) where
  files : World.Files
  cwd : World.Place
  environment : World.Environment
  script : Git.Script Time
  clock : Time
  isTerminal : Bool := false
  trace : List (World.Event Time) := []

/-- A step from world to world that may fail.  What happened before a failure stays. -/
abbrev Program (Time : Type) := ExceptT Failure (StateM (World Time))

namespace World

variable {Time : Type}

def cwdText (world : World Time) : String :=
  Files.placeText world.cwd

end World

namespace Program

variable {Time : Type}

def fail {α : Type} (failure : Failure) : Program Time α :=
  throw failure

def failWith {α : Type} (kind : Failure.GitProblem) (detail : String) : Program Time α :=
  throw (Failure.git kind detail)

/-- A result, or the fault in its place. -/
def ofFault {α : Type} (result : Except Failure.Fault α) : Program Time α :=
  match result with
  | .ok value => pure value
  | .error fault => throw (.fault fault)

/-- A result, or the failure in its place. -/
def ofResult {α : Type} (result : Except Failure α) : Program Time α :=
  match result with
  | .ok value => pure value
  | .error failure => throw failure

/-- A result about a path, or the refusal in its place. -/
def ofRefusal {α : Type} (path : String) (result : Except Failure.FileFault α) :
    Program Time α :=
  match result with
  | .ok value => pure value
  | .error fault => throw (.fault (.file fault path))

def world : Program Time (World Time) :=
  fun current => (.ok current, current)

def change (step : World Time → World Time) : Program Time Unit :=
  fun current => (.ok (), step current)

def record (event : World.Event Time) : Program Time Unit :=
  change fun current => { current with trace := current.trace ++ [event] }

def log (level : World.Level) (logger message : String) : Program Time Unit :=
  record (.logged ⟨level, logger, message⟩)

def print (text : String) : Program Time Unit :=
  record (.printed text)

def printLine (text : String) : Program Time Unit :=
  print (text ++ "\n")

def reportLine (text : String) : Program Time Unit :=
  record (.reported (text ++ "\n"))

def attempt {α : Type} (program : Program Time α) : Program Time (Except Failure α) :=
  fun current =>
    match program current with
    | (result, after) => (.ok result, after)

/-- The outcome of a program in a world, and the world after it. -/
def runIn {α : Type} (program : Program Time α) (world : World Time) :
    Except Failure α × World Time :=
  program world

end Program

namespace World

variable {Time : Type}

def calls (trace : List (Event Time)) : List (Call Time) :=
  trace.filterMap fun
    | .called call => some call
    | _ => none

def logRecords (trace : List (Event Time)) : List LogRecord :=
  trace.filterMap fun
    | .logged record => some record
    | _ => none

def output (trace : List (Event Time)) : String :=
  String.join (trace.filterMap fun
    | .printed text => some text
    | _ => none)

end World
end Provenance
