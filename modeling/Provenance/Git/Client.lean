import Provenance.Failure.Shown
import Provenance.Text.Blank
import Provenance.World.Basic

/-!
Contract: questions to the version control program.

Owns:
- `Client`, the program's name and limits;
- `run`, one call with its limit, its log records and its failures;
- the questions, one function each, and what their answers mean.

Does **not** own: which questions are asked in which order, and which failures
end an assembly.

## The limit of a call

A call is given the client's own limit, or a tighter one that is left of an
overall deadline.  A call that takes longer than its limit is cut off at it, so
the clock never runs past the limit of a call.
-/

set_option autoImplicit false

namespace Provenance.Git

open Data (Value)
open Failure (Fault GitProblem GapField)
open World (Timekeeping)

/-- The version control program as it is called. -/
structure Client (Time : Type) where
  timeout : Time
  binary : Value := .text "git"
  shortHashLength : Value := .int 8

def loggerName : String := "gitmeta.infra.git_client"

/-- The first line of an output, without white space at its ends. -/
def firstLine (output : String) : String :=
  String.ofList (Text.trim (output.toList.takeWhile (· ≠ '\n')))

/-- The lines of an output that are not blank, without white space at their ends. -/
def contentLines (output : String) : List String :=
  ((Text.lines output).map Text.trimText).filter fun line => !line.isEmpty

/-- What a call can come to. -/
inductive Outcome where
  | exited (output : String) (errors : String) (code : Int)
  | expired
  | missing
  | notADirectory
  deriving DecidableEq, Repr

/-- The text of an output: broken octets are replaced, line ends unified. -/
def outputText (octets : List UInt8) : String :=
  String.ofList (Text.Utf8.unifyLineEnds (Text.Utf8.decodeReplacing octets))

namespace Client

variable {Time : Type} [Timekeeping Time]

def command (client : Client Time) (arguments : List String) : List String :=
  client.binary.display :: arguments

/-- The words of a call in one line; a name that is no text cannot be put there. -/
def commandLine (client : Client Time) (arguments : List String) : Except Fault String :=
  match client.binary with
  | .scalar (.text name) => .ok (" ".intercalate (name :: arguments))
  | other => .error (.notJoinable 0 other.kind)

/-- The limit of a call, given what is left of an overall deadline. -/
def limit (client : Client Time) (left : Option Time) : Except Fault Time :=
  match left with
  | none => .ok client.timeout
  | some left =>
    if Timekeeping.isAbsent left then .ok client.timeout
    else
      match Timekeeping.exceeds left client.timeout with
      | .error fault => .error fault
      | .ok true => .ok client.timeout
      | .ok false => .ok left

/-- Whether an answer takes longer than a limit; no limit is never exceeded. -/
def isCutOff (answer : Answer Time) (limit : Time) : Except Fault Bool :=
  if Timekeeping.isAbsent limit then .ok false else Timekeeping.exceeds answer.takes limit

def advance (span : Time) : Program Time Unit := do
  let world ← Program.world
  let clock ← Program.ofFault (Timekeeping.add world.clock span)
  Program.change fun current => { current with clock := clock }

/-- What comes of an answer that arrives in time. -/
def settle (client : Client Time) (answer : Answer Time) : Program Time Outcome :=
  if answer.hangs then
    Program.fail (.fault .unfinished)
  else
    match answer.trouble with
    | some .timeout => pure .expired
    | some .missing => pure .missing
    | some .notADirectory => pure .notADirectory
    | some .denied => Program.fail (.fault (.file .denied client.binary.display))
    | some .interrupt => Program.fail (.fault .interrupted)
    | none => pure (.exited (outputText answer.output) answer.errors answer.code)

/-- Whether the null character, which ends a text for the system, is in a word of a call or in the
name of its directory. -/
def holdsNull (client : Client Time) (arguments : List String) (directory : String) : Bool :=
  (directory :: client.command arguments).any (Text.contains '\x00')

/-- Calls the program: the call is recorded, then time passes, then the answer is there.

A call that the system cannot be given is not made. -/
def call (client : Client Time) (arguments : List String) (directory : String) (limit : Time) :
    Program Time Outcome := do
  if client.holdsNull arguments directory then
    Program.fail (.fault .nullCharacter)
  else
    let world ← Program.world
    Program.record (.called ⟨client.command arguments, directory, limit, world.clock⟩)
    let answer := world.script.answer arguments
    if ← Program.ofFault (isCutOff answer limit) then
      advance limit
      pure .expired
    else
      advance answer.takes
      client.settle answer

/-- What is made of a call's outcome: what is printed with the exit code, or a problem. -/
def report (client : Client Time) (line directory : String) (limit : Time) :
    Outcome → Program Time (String × Int)
  | .expired => do
    let seconds ← Program.ofFault (Timekeeping.seconds limit)
    Program.log World.Level.warning loggerName
      ("Git command timed out after " ++ seconds ++ "s: " ++ line)
    Program.failWith .timeout line
  | .missing => do
    let world ← Program.world
    if world.files.isDirectory world.cwd directory then
      Program.failWith .noBinary client.binary.display
    else
      Program.failWith .notARepository (directory ++ " does not exist")
  | .notADirectory => Program.failWith .notARepository (directory ++ " is not a directory")
  | .exited output errors code => do
    if code ≠ 0 ∧ errors ≠ "" then
      Program.log World.Level.debug loggerName
        (line ++ " exited " ++ toString code ++ ": " ++ Text.trimText errors)
    pure (output, code)

/-- Runs the program and returns what it prints and its exit code.

A cut-off call, a missing program or a missing directory is a problem; `left` is
what is left of an overall deadline. -/
def run (client : Client Time) (arguments : List String) (directory : String)
    (left : Option Time) : Program Time (String × Int) := do
  let limit ← Program.ofFault (client.limit left)
  let line ← Program.ofFault (client.commandLine arguments)
  Program.log World.Level.debug loggerName ("Running " ++ line ++ " in " ++ directory)
  let outcome ← client.call arguments directory limit
  client.report line directory limit outcome

def exitDetail (client : Client Time) (arguments : List String) (code : Int) : String :=
  " ".intercalate (client.command arguments) ++ " returned exit code " ++ toString code

/-- The first line that is printed; where a call fails or prints nothing, the field has a gap. -/
def readLine (client : Client Time) (arguments : List String) (field : GapField)
    (silence : String) (printed : String × Int) : Except Failure String :=
  if printed.2 ≠ 0 then
    .error (Failure.git (.gap field) (client.exitDetail arguments printed.2))
  else if Text.isBlankText printed.1 then
    .error (Failure.git (.gap field) silence)
  else
    .ok (firstLine printed.1)

/-- A fact that a call prints on its first line; without it the field has a gap. -/
def askLine (client : Client Time) (arguments : List String) (field : GapField) (silence : String)
    (directory : String) (left : Option Time) : Program Time String := do
  let printed ← client.run arguments directory left
  Program.ofResult (client.readLine arguments field silence printed)

/-! ## The arguments of the questions -/

namespace Arguments

def status : List String := ["status"]

def root : List String := ["rev-parse", "--show-toplevel"]

def remoteUrl (remote : String) : List String := ["config", "--get", "remote." ++ remote ++ ".url"]

def hash : List String := ["rev-parse", "HEAD"]

def shortHash (length : String) : List String := ["rev-parse", "--short=" ++ length, "HEAD"]

def branches : List String := ["rev-parse", "--abbrev-ref", "HEAD"]

def tags : List String := ["describe", "--exact-match", "--tags"]

def timestamp : List String := ["log", "-1", "--format=%ct"]

end Arguments

/-- Whether a program can be found: by its path, or in one of the directories of `PATH`. -/
def canFind (world : World Time) (name : String) : Bool :=
  let found (path : String) : Bool :=
    !Text.contains '\x00' path && world.files.isExecutable world.cwd path
  if Text.contains '/' name then
    found name
  else
    let directories :=
      match world.environment.get? "PATH" with
      | some "" => []
      | some path => Text.splitText ':' path
      | none => ["/bin", "/usr/bin"]
    directories.any fun directory => found (Path.join directory name)

/-- Whether the program can be found.  Octets that are no text are the name of no program. -/
def hasBinary (client : Client Time) : Program Time Bool := do
  let world ← Program.world
  match client.binary with
  | .scalar (.text name) => pure (canFind world name)
  | .scalar (.bytes octets) =>
    match Text.Utf8.decodeStrict octets with
    | .ok characters => pure (canFind world (String.ofList characters))
    | .error _ => pure false
  | other => Program.fail (.fault (.notAName other.kind))

def isRepository (client : Client Time) (directory : String) (left : Option Time) :
    Program Time Bool := do
  let (_, code) ← client.run Arguments.status directory left
  pure (code == 0)

/-- The root that is printed; a repository without one is a problem. -/
def readRoot (client : Client Time) (printed : String × Int) : Except Failure String :=
  if printed.2 ≠ 0 then
    .error (Failure.git .noBaseDirectory (client.exitDetail Arguments.root printed.2))
  else if printed.1.isEmpty then
    .error (Failure.git .noBaseDirectory "no output returned for git base dir")
  else
    .ok (firstLine printed.1)

/-- The root of the repository that a directory is in. -/
def repositoryRoot (client : Client Time) (directory : String) (left : Option Time) :
    Program Time String := do
  let printed ← client.run Arguments.root directory left
  Program.ofResult (client.readRoot printed)

def remoteUrl (client : Client Time) (remote : Value) (directory : String)
    (left : Option Time) : Program Time String := do
  let name ← Program.ofFault remote.shown
  client.askLine (Arguments.remoteUrl name) .remoteUrl ("no remote " ++ name ++ " url output")
    directory left

def commitHash (client : Client Time) (directory : String) (left : Option Time) :
    Program Time String :=
  client.askLine Arguments.hash .hash "no hash output" directory left

def shortCommitHash (client : Client Time) (directory : String) (left : Option Time) :
    Program Time String := do
  let length ← Program.ofFault client.shortHashLength.shown
  client.askLine (Arguments.shortHash length) .shortHash "no short hash output" directory left

def readBranches (client : Client Time) (printed : String × Int) : Except Failure (List String) :=
  if printed.2 ≠ 0 then
    .error (Failure.git (.gap .branch) (client.exitDetail Arguments.branches printed.2))
  else
    .ok (contentLines printed.1)

/-- The branches that are checked out; a detached commit is shown as `HEAD`. -/
def currentBranches (client : Client Time) (directory : String) (left : Option Time) :
    Program Time (List String) := do
  let printed ← client.run Arguments.branches directory left
  Program.ofResult (client.readBranches printed)

/-- The tags that are printed; none where the program fails. -/
def readTags (printed : String × Int) : List String :=
  if printed.2 ≠ 0 then [] else contentLines printed.1

/-- The tags of the commit; none where the program fails. -/
def tagsAtHead (client : Client Time) (directory : String) (left : Option Time) :
    Program Time (List String) := do
  let printed ← client.run Arguments.tags directory left
  pure (readTags printed)

/-- The time that is printed; `0` where it is unknown. -/
def readTimestamp (printed : String × Int) : String :=
  if printed.2 ≠ 0 || Text.isBlankText printed.1 then "0" else firstLine printed.1

/-- The time of the commit in seconds; `0` where it is unknown. -/
def commitTimestamp (client : Client Time) (directory : String) (left : Option Time) :
    Program Time String := do
  let printed ← client.run Arguments.timestamp directory left
  pure (readTimestamp printed)

end Client
end Provenance.Git
