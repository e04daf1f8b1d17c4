import Provenance.Assembly.Pool
import Provenance.Assembly.Sequential
import Provenance.Location
import Provenance.Remote

/-!
Contract: the record of a directory.

Owns:
- `Service`, a client with its limits and the gaps of its last record;
- `assembleAlong`, the stages from the first call to the record, and `assemble`, its
  plain schedule.

Does **not** own: where the settings of a service come from.

## The stages

The program must be there, the directory must be in a working tree, and the root
of the repository must be known; then the optional facts are collected; then the
remote must have a canonical location; last, the directory must lie below the
root.  The first stage that fails ends the assembly.
-/

set_option autoImplicit false

namespace Provenance.Assembly

open Data (Value)
open Failure (Problem Fault)
open World (Timekeeping)

/-- A maker of records. -/
structure Service (Time : Type) where
  client : Git.Client Time
  remote : Value := .text "origin"
  parallel : Nat := 1
  deadlineSeconds : Option Time := none
  /-- The gaps of the last record, in order. -/
  lastErrors : List Problem := []

def loggerName : String := "gitmeta.services.metadata_service"

/-- The moment at which a run has to end; a limit that does not count is none. -/
def deadlineAfter {Time : Type} [Timekeeping Time] (limit : Option Time) :
    Program Time (Option Time) :=
  match limit with
  | none => pure none
  | some limit =>
    if Timekeeping.isSet limit then do
      let world ← Program.world
      let deadline ← Program.ofFault (Timekeeping.add world.clock limit)
      pure (some deadline)
    else
      pure none

/-- The canonical location of a remote; a remote without one is a problem. -/
def locationOf {Time : Type} (remoteUrl : String) : Program Time String :=
  if remoteUrl.isEmpty then
    pure ""
  else
    let location := Remote.canonical remoteUrl
    if location.isEmpty then
      Program.failWith .remoteUrl ("cannot parse remote url " ++ Text.quoted remoteUrl)
    else
      pure location

namespace Service

variable {Time : Type} [Timekeeping Time]

/-- The optional facts: one after another, or side by side with several workers, which a schedule
then drives. -/
def collect (service : Service Time) (schedule : Pool.Schedule) (directory : String)
    (deadline : Option Time) : Program Time Facts := do
  let ask := Assembly.ask service.client service.remote directory deadline
  if service.parallel ≤ 1 then
    Sequential.collect ask
  else
    match ← Pool.collect service.parallel deadline.isSome ask schedule with
    | some facts => pure facts
    | none => Program.fail (.fault .unfinished)

/-- Lets only a directory inside a working tree pass. -/
def requireRepository (service : Service Time) (directory : String) (deadline : Option Time) :
    Program Time Unit := do
  let left ← remaining deadline
  let isRepository ← service.client.isRepository directory left
  if isRepository then pure () else Program.failWith .notARepository directory

/-- The root of the repository that a directory is in. -/
def rootOf (service : Service Time) (directory : String) (deadline : Option Time) :
    Program Time String := do
  let left ← remaining deadline
  service.client.repositoryRoot directory left

/-- The record that facts and a root amount to, and its gaps. -/
def conclude (directory baseDir : String) (facts : Facts) :
    Program Time (Record × List Problem) := do
  let gitUrl ← locationOf facts.remoteUrl
  let relDir ← Location.relativeDirectory baseDir directory
  pure (facts.toRecord baseDir relDir gitUrl, facts.gaps)

/-- The record of a directory until a deadline, once version control has been found. -/
def gatherUntil (service : Service Time) (schedule : Pool.Schedule) (directory : String)
    (deadline : Option Time) : Program Time (Record × List Problem) := do
  service.requireRepository directory deadline
  let baseDir ← service.rootOf directory deadline
  let facts ← service.collect schedule directory deadline
  conclude directory baseDir facts

/-- The record of a directory, without looking at what is kept of the last one. -/
def gather (service : Service Time) (schedule : Pool.Schedule) (directory : String)
    (limit : Option Time) : Program Time (Record × List Problem) := do
  let deadline ← deadlineAfter (limit.or service.deadlineSeconds)
  let isThere ← service.client.hasBinary
  if isThere then service.gatherUntil schedule directory deadline
  else Program.fail (.problem (.git .noBinary none none))

/-- Records a gap of a directory's record in the log. -/
def reportGap (directory : String) (gap : Problem) : Program Time Unit :=
  Program.log World.Level.warning loggerName (directory ++ ": " ++ gap.message)

/-- The record of a directory along a schedule.  The service afterwards keeps the gaps of this
record. -/
def assembleAlong (service : Service Time) (schedule : Pool.Schedule) (directory : String)
    (limit : Option Time) : Program Time (Service Time × Record) := do
  let (record, gaps) ← service.gather schedule directory limit
  gaps.forM (reportGap directory)
  pure ({ service with lastErrors := gaps }, record)

/-- The record of a directory, along the schedule of one query after another. -/
def assemble (service : Service Time) (directory : String) (limit : Option Time) :
    Program Time (Service Time × Record) :=
  service.assembleAlong Pool.Schedule.inOrder directory limit

def warning? (service : Service Time) : Option Problem :=
  service.lastErrors.getLast?

end Service
end Provenance.Assembly
