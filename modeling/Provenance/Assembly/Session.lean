import Provenance.Assembly.Service

/-!
Contract: one service at work, call after call.

Owns:
- `Session`, a service in its world, and `Session.Action`, what is done with both;
- `Session.assembleAlong`, the record of a directory with its last gap, and
  `Session.assemble`, its plain schedule.

Does **not** own: the stages of an assembly.

## What a call leaves in its service

The gaps of a record are kept as soon as there is a record, and reported then.  A
call that fails at any stage before has no gaps to keep, so the service still has
those of an earlier one.
-/

set_option autoImplicit false

namespace Provenance.Assembly

open Failure (Problem)
open World (Timekeeping)

/-- A service in its world. -/
structure Session (Time : Type) where
  service : Service Time
  world : World Time

namespace Session

/-- What is done with a service, and may fail.  What was changed before a failure stays changed. -/
abbrev Action (Time : Type) := ExceptT Failure (StateM (Session Time))

section Actions

variable {Time : Type}

/-- The outcome of an action, and the session after it. -/
def Action.runIn {α : Type} (action : Action Time α) (session : Session Time) :
    Except Failure α × Session Time :=
  action session

def currentService : Action Time (Service Time) :=
  fun session => (.ok session.service, session)

/-- What a program does in the world of the session. -/
def inWorld {α : Type} (program : Program Time α) : Action Time α :=
  fun session =>
    let (result, after) := program.runIn session.world
    (result, { session with world := after })

/-- From now on the service keeps these gaps. -/
def keepGaps (gaps : List Problem) : Action Time Unit :=
  fun session => (.ok (), { session with service := { session.service with lastErrors := gaps } })

end Actions

variable {Time : Type} [Timekeeping Time]

/-- The record of a directory along a schedule, with its last gap. -/
def assembleAlong (schedule : Pool.Schedule) (directory : String) (limit : Option Time) :
    Action Time (Record × Option Problem) := do
  let service ← currentService
  let (record, gaps) ← inWorld (service.gather schedule directory limit)
  keepGaps gaps
  inWorld (gaps.forM (Service.reportGap directory))
  pure (record, gaps.getLast?)

/-- The record of a directory, along the schedule of one query after another. -/
def assemble (directory : String) (limit : Option Time) : Action Time (Record × Option Problem) :=
  assembleAlong Pool.Schedule.inOrder directory limit

end Session
end Provenance.Assembly
