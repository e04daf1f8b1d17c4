import Provenance.Proofs.Assembly.Course

/-!
Contract: a whole assembly, from its start to its record.

Owns:
- `Service.deadlineFrom` and `Service.absent?`, what is settled before any call;
- `Service.wholeCourse`, the course of an assembly that starts at some moment;
- `Service.assembleAlong_runIn`, the law that an assembly takes it;
- `warnings`, what a service says of the gaps in a record;
- `answeringWorld` and `answeredService`, in which laws about assemblies are shown at
  work.

Does **not** own: what follows from the course, and asking side by side.
-/

set_option autoImplicit false

namespace Provenance.Assembly

open Failure (Problem Fault)
open World (Timekeeping Call LogRecord)

/-! ## Reports of gaps -/

section Reports

variable {Time : Type}

/-- What a service says of the gaps in a directory's record. -/
def warnings (directory : String) (gaps : List Problem) : List LogRecord :=
  gaps.map fun gap => ⟨World.Level.warning, loggerName, directory ++ ": " ++ gap.message⟩

theorem reportGaps_runIn (directory : String) (gaps : List Problem) (world : World Time) :
    (gaps.forM (Service.reportGap directory) : Program Time PUnit).runIn world =
      (.ok (), { world with trace := world.trace ++ (warnings directory gaps).map .logged }) := by
  induction gaps generalizing world with
  | nil => simp [warnings]
  | cons gap rest inductionHypothesis =>
      change (Service.reportGap directory gap >>= fun _ => rest.forM (Service.reportGap directory) :
        Program Time PUnit).runIn world = _
      rw [Program.runIn_bind, Service.reportGap, Program.runIn_log]
      simp only
      rw [inductionHypothesis]
      simp [warnings]

end Reports

namespace Service

variable (service : Service Rat) (world : World Rat) (directory : String)

/-- The moment at which an assembly has to end that starts now.  A limit of zero counts as none. -/
def deadlineFrom (limit : Option Rat) (clock : Rat) : Option Rat :=
  match limit.or service.deadlineSeconds with
  | some span => if span = 0 then none else some (clock + span)
  | none => none

/-- The failure of an assembly that finds no version control. -/
def absent? : Option Failure :=
  match (service.client.hasBinary.runIn world).1 with
  | .error failure => some failure
  | .ok true => none
  | .ok false => some (.problem (.git .noBinary none none))

def wholeCourse (limit : Option Rat) : Course :=
  match service.absent? world with
  | some failure => ⟨[], world.clock, some failure⟩
  | none =>
    service.course world directory (service.deadlineFrom limit world.clock) Stage.all world.clock

/-- What a whole assembly comes to: its record with the gaps. -/
def wholeResult (limit : Option Rat) : Except Failure (Record × List Problem) :=
  (service.wholeCourse world directory limit).ending
    (conclusion world directory (baseDirIn world) (service.facts world))

theorem deadlineAfter_runIn (limit : Option Rat) :
    (deadlineAfter (limit.or service.deadlineSeconds)).runIn world =
      (.ok (service.deadlineFrom limit world.clock), world) := by
  unfold deadlineFrom
  cases limit.or service.deadlineSeconds with
  | none => rfl
  | some span =>
      by_cases zero : span = 0
      · simp [deadlineAfter, Timekeeping.isSet, zero]
      · simp [deadlineAfter, Timekeeping.isSet, zero, Timekeeping.add, Program.runIn_bind,
          Program.runIn_map, Except.map]

theorem hasBinary_runIn :
    service.client.hasBinary.runIn world = ((service.client.hasBinary.runIn world).1, world) := by
  unfold Git.Client.hasBinary
  rw [Program.runIn_bind, Program.runIn_world]
  simp only
  split
  · rfl
  · split <;> rfl
  · rfl

/-- Nothing is gathered without version control; with it, an assembly is gathered until its
deadline. -/
theorem gather_runIn_eq (schedule : Pool.Schedule) (limit : Option Rat) :
    (service.gather schedule directory limit).runIn world =
      match service.absent? world with
      | some failure => (.error failure, world)
      | none =>
        (service.gatherUntil schedule directory
          (service.deadlineFrom limit world.clock)).runIn world := by
  unfold gather absent?
  rw [Program.runIn_bind, deadlineAfter_runIn]
  simp only
  rw [Program.runIn_bind, hasBinary_runIn]
  cases (service.client.hasBinary.runIn world).1 with
  | error failure => rfl
  | ok isThere => cases isThere <;> rfl

/-- One question after another, an assembly takes its whole course. -/
theorem gather_runIn (sequential : service.parallel ≤ 1) (schedule : Pool.Schedule)
    (limit : Option Rat) :
    ∃ after,
      (service.gather schedule directory limit).runIn world =
          (service.wholeResult world directory limit, after) ∧
        world.Follows after (service.wholeCourse world directory limit).made ∧
        after.clock = (service.wholeCourse world directory limit).clock := by
  rw [gather_runIn_eq]
  unfold wholeResult wholeCourse
  cases service.absent? world with
  | some failure => exact ⟨world, rfl, .refl world, rfl⟩
  | none =>
      exact gatherUntil_runsThrough service world directory _ sequential schedule world []
        (.refl world)

/-- What an assembly leaves: its record, and the service with the gaps of this record. -/
def kept (found : Record × List Problem) : Service Rat × Record :=
  ({ service with lastErrors := found.2 }, found.1)

/-- An assembly ends as it has gathered, and only the log may still grow. -/
theorem assembleAlong_runIn_of_gather {schedule : Pool.Schedule} {limit : Option Rat}
    {result : Except Failure (Record × List Problem)} {middle : World Rat}
    (gathers : (service.gather schedule directory limit).runIn world = (result, middle)) :
    ∃ after,
      (service.assembleAlong schedule directory limit).runIn world =
          (result.map service.kept, after) ∧
        middle.Follows after [] ∧ after.clock = middle.clock := by
  unfold assembleAlong
  rw [Program.runIn_bind, gathers]
  cases result with
  | error failure => exact ⟨middle, rfl, .refl middle, rfl⟩
  | ok found =>
      refine ⟨_, Program.runIn_bind_of_ok (reportGaps_runIn directory found.2 middle) _, ?_, rfl⟩
      exact World.Follows.said middle (warnings directory found.2)

/-- **The law of a whole assembly.**  One question after another, it takes its course and leaves
what it comes to. -/
theorem assembleAlong_runIn (sequential : service.parallel ≤ 1) (schedule : Pool.Schedule)
    (limit : Option Rat) :
    ∃ after,
      (service.assembleAlong schedule directory limit).runIn world =
          ((service.wholeResult world directory limit).map service.kept, after) ∧
        world.Follows after (service.wholeCourse world directory limit).made ∧
        after.clock = (service.wholeCourse world directory limit).clock := by
  obtain ⟨middle, gathers, follows, clock⟩ :=
    service.gather_runIn world directory sequential schedule limit
  obtain ⟨after, assembles, reported, same⟩ :=
    service.assembleAlong_runIn_of_gather world directory gathers
  refine ⟨after, assembles, ?_, same.trans clock⟩
  simpa using follows.trans reported

end Service

/-- A world in which every call prints `/` and takes the same time. -/
def answeringWorld (takes : Rat) : World Rat where
  files := ⟨[(["git"], .file [] true)]⟩
  cwd := []
  environment := []
  script := { otherwise := { output := [47], takes := takes } }
  clock := 1000

/-- A service with limits of two seconds that finds its program in such a world. -/
def answeredService (length : Int) (parallel : Nat) : Service Rat where
  client := { timeout := 2, binary := .text "/git", shortHashLength := .int length }
  parallel := parallel

end Provenance.Assembly
