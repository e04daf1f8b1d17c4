import Provenance.Assembly.Configured
import Provenance.Assembly.Session
import Provenance.Proofs.Assembly.Run
import Provenance.Proofs.Assembly.Told
import Provenance.Proofs.Settings.Load

/-!
Contract: what a service remembers from one call to the next.

Owns:
- `serviceLog`, what services say in the log, and that gathering adds nothing to it;
- `Session.assembleAlong_runIn`, what a call in a session comes to, and that an assembly outside of
  sessions comes to the same;
- `Session.visit` and `Session.history`, one call and calls in turn, between which anything may
  happen in the world;
- `Session.visit_isForgetful`, the law that a service remembers the gaps of its last record and
  nothing else.

Does **not** own: when a call returns.

## Why a call is compared in one world

What is done in a world stays done, and another service would find it there too.
So a call on a service that has been used is compared with the same call on a
fresh one in the very world that the earlier calls left behind.
-/

set_option autoImplicit false

namespace Provenance.Assembly

open Failure (Problem)
open Settings (exists_of_bind_eq_ok)
open World (Timekeeping Event LogRecord)

variable {Time : Type}

/-! ## What services say in the log -/

/-- The records of services in the log. -/
def serviceLog (trace : List (Event Time)) : List LogRecord :=
  (World.logRecords trace).filter fun record => record.logger = loggerName

theorem serviceLog_append (first second : List (Event Time)) :
    serviceLog (first ++ second) = serviceLog first ++ serviceLog second := by
  simp [serviceLog, World.logRecords]

theorem serviceLog_warnings (directory : String) (gaps : List Problem) :
    serviceLog ((warnings directory gaps).map (.logged : LogRecord → Event Time)) =
      warnings directory gaps := by
  induction gaps with
  | nil => rfl
  | cons gap rest inductionHypothesis =>
      have first : serviceLog [(.logged
          ⟨World.Level.warning, loggerName, directory ++ ": " ++ gap.message⟩ : Event Time)] =
          [⟨World.Level.warning, loggerName, directory ++ ": " ++ gap.message⟩] := by
        simp [serviceLog, World.logRecords]
      rw [warnings, List.map_cons, List.map_cons, ← List.singleton_append, serviceLog_append, first]
      exact congrArg _ inductionHypothesis

/-- All answers are those of a script, and services have said just this. -/
structure HasSaid (script : Git.Script Time) (records : List LogRecord) (current : World Time) :
    Prop where
  script : current.script = script
  log : serviceLog current.trace = records

/-- Version control is not a service, and what it logs is not what services say. -/
theorem questioned_hasSaid (script : Git.Script Time) (records : List LogRecord) :
    World.Questioned script Git.loggerName (HasSaid script records) where
  heard := by
    intro current level message said
    refine ⟨said.script, ?_⟩
    have another : serviceLog [(.logged ⟨level, Git.loggerName, message⟩ : Event Time)] = [] := by
      have different : Git.loggerName ≠ loggerName := by decide
      simp [serviceLog, World.logRecords, different]
    rw [serviceLog_append, another, List.append_nil, said.log]
  timed := fun _ _ said => ⟨said.script, said.log⟩
  called := by
    intro current call said
    refine ⟨said.script, ?_⟩
    rw [serviceLog_append, said.log]
    exact List.append_nil records
  tells := fun _ said => said.script

namespace Service

/-- The service as it was made. -/
def fresh (service : Service Time) : Service Time :=
  { service with lastErrors := [] }

variable [Timekeeping Time] (service : Service Time) (world : World Time)

/-- The gaps that a call reports if it returns: those that version control tells. -/
def gapsIn : List Problem :=
  (service.factsBy world.script).gaps

/-- **While a record is gathered the service says nothing**, and the gaps of a record are those that
version control tells. -/
theorem gather_silent (schedule : Pool.Schedule) (directory : String) (limit : Option Time) :
    serviceLog ((service.gather schedule directory limit).runIn world).2.trace =
        serviceLog world.trace ∧
      ∀ found, ((service.gather schedule directory limit).runIn world).1 = .ok found →
        found.2 = service.gapsIn world := by
  have keeps := service.gather_keeps
    (questioned_hasSaid world.script (serviceLog world.trace)) directory
    (service.conclude_keeps_told directory) schedule limit
  obtain ⟨said, returns, -⟩ := keeps world ⟨rfl, rfl⟩
  refine ⟨said.log, fun found comes => ?_⟩
  obtain ⟨baseDir, relDir, gitUrl, rfl⟩ := returns found comes
  rfl

end Service

/-! ## Calls in a session -/

namespace Session

section Running

variable {α β : Type} (session : Session Time)

theorem runIn_bind (action : Action Time α) (next : α → Action Time β) :
    (action >>= next).runIn session =
      match action.runIn session with
      | (.ok value, after) => (next value).runIn after
      | (.error failure, after) => (.error failure, after) := by
  change (ExceptT.bindCont next (action session).1) (action session).2 = _
  unfold Action.runIn
  cases action session with
  | mk result after => cases result <;> rfl

theorem runIn_inWorld (program : Program Time α) :
    (inWorld program).runIn session =
      ((program.runIn session.world).1,
        { session with world := (program.runIn session.world).2 }) :=
  rfl

end Running

variable [Timekeeping Time] (session : Session Time) (schedule : Pool.Schedule)
  (directory : String) (limit : Option Time)

/-- What a call in a session comes to.  Only a record changes the service. -/
theorem assembleAlong_runIn :
    (assembleAlong schedule directory limit).runIn session =
      match (session.service.gather schedule directory limit).runIn session.world with
      | (.ok (record, gaps), after) =>
        (.ok (record, gaps.getLast?),
          ⟨{ session.service with lastErrors := gaps },
            { after with trace := after.trace ++ (warnings directory gaps).map .logged }⟩)
      | (.error failure, after) => (.error failure, ⟨session.service, after⟩) := by
  unfold assembleAlong
  rw [runIn_bind]
  change (inWorld _ >>= _ : Action Time _).runIn session = _
  rw [runIn_bind, runIn_inWorld]
  cases (session.service.gather schedule directory limit).runIn session.world with
  | mk result after =>
      cases result with
      | error failure => rfl
      | ok found =>
          simp only
          rw [runIn_bind]
          change (inWorld _ >>= _ : Action Time _).runIn
            ⟨{ session.service with lastErrors := found.2 }, after⟩ = _
          rw [runIn_bind, runIn_inWorld, reportGaps_runIn]
          rfl

/-- A call in a session comes to what it comes to outside of sessions, where a service that fails is
kept as it is. -/
theorem assembleAlong_eq :
    (assembleAlong schedule directory limit).runIn session =
      match (session.service.assembleAlong schedule directory limit).runIn session.world with
      | (.ok (kept, record), after) => (.ok (record, kept.warning?), ⟨kept, after⟩)
      | (.error failure, after) => (.error failure, ⟨session.service, after⟩) := by
  rw [assembleAlong_runIn, Service.assembleAlong, Program.runIn_bind]
  cases (session.service.gather schedule directory limit).runIn session.world with
  | mk result after =>
      cases result with
      | error failure => rfl
      | ok found =>
          simp only
          rw [Program.runIn_bind, reportGaps_runIn]
          rfl

/-- The gaps that a service has kept have no say in what a call comes to: gathering looks at its
configuration alone. -/
theorem assembleAlong_fresh :
    let run := (assembleAlong schedule directory limit).runIn session
    let other := (assembleAlong schedule directory limit).runIn
      ⟨session.service.fresh, session.world⟩
    other.1 = run.1 ∧ other.2.world = run.2.world := by
  have same : session.service.fresh.gather schedule directory limit =
      session.service.gather schedule directory limit := rfl
  simp only
  rw [assembleAlong_runIn, assembleAlong_runIn session, same]
  cases (session.service.gather schedule directory limit).runIn session.world with
  | mk result after => cases result <;> exact ⟨rfl, rfl⟩

end Session

/-! ## Calls in turn -/

/-- A call to be made, and what has become of the world since the call before. -/
structure Inquiry (Time : Type) where
  change : World Time → World Time
  directory : String
  limit : Option Time := none
  /-- The order in which several workers go about it. -/
  schedule : Pool.Schedule := .inOrder

/-- A call that has been made: the session right before and after it, and what it came to. -/
structure Visit (Time : Type) where
  before : Session Time
  result : Except Failure (Record × Option Problem)
  after : Session Time

def Visit.returned (visit : Visit Time) : Bool :=
  visit.result.isOk

namespace Session

variable [Timekeeping Time]

/-- One call, after whatever has happened in the world. -/
def visit (session : Session Time) (inquiry : Inquiry Time) : Visit Time :=
  let before := { session with world := inquiry.change session.world }
  let run := (assembleAlong inquiry.schedule inquiry.directory inquiry.limit).runIn before
  ⟨before, run.1, run.2⟩

/-- The session after some calls in turn. -/
def afterAll (session : Session Time) : List (Inquiry Time) → Session Time
  | [] => session
  | inquiry :: rest => (session.visit inquiry).after.afterAll rest

/-- Some calls in turn. -/
def history (session : Session Time) : List (Inquiry Time) → List (Visit Time)
  | [] => []
  | inquiry :: rest => session.visit inquiry :: (session.visit inquiry).after.history rest

/-- What a call can come to, in whatever order several workers go about it. -/
def CanComeTo (session : Session Time) (inquiry : Inquiry Time)
    (result : Except Failure (Record × Option Problem)) : Prop :=
  ∃ schedule, (session.visit { inquiry with schedule := schedule }).result = result

end Session

namespace Service

/-- The gaps of the last call that has returned; there are none before the first one. -/
def lastGaps (service : Service Time) (visits : List (Visit Time)) : List Problem :=
  ((visits.filter Visit.returned).getLast?.map fun visit =>
    service.gapsIn visit.before.world).getD []

/-- What a service has come to after some calls: nothing but the gaps is remembered. -/
def after (service : Service Time) (visits : List (Visit Time)) : Service Time :=
  { service with lastErrors := service.lastGaps visits }

/-- A service that settings describe is fresh. -/
theorem fresh_of_ofSettings {client : Option (Git.Client Data.Value)} {settings : Data.Shared}
    {service : Service Data.Value} (makes : ofSettings client settings = .ok service) :
    service.fresh = service := by
  obtain ⟨_, -, makes⟩ := exists_of_bind_eq_ok makes
  -- A client that is given and one that is described take the same place.
  cases client with
  | some _ | none =>
      obtain ⟨_, -, makes⟩ := exists_of_bind_eq_ok makes
      obtain ⟨_, -, makes⟩ := exists_of_bind_eq_ok makes
      obtain ⟨_, -, makes⟩ := exists_of_bind_eq_ok makes
      obtain ⟨_, -, makes⟩ := exists_of_bind_eq_ok makes
      obtain ⟨_, -, makes⟩ := exists_of_bind_eq_ok makes
      obtain rfl := Except.ok.inj makes
      rfl

end Service

section Remembering

variable {service : Service Time} {visits : List (Visit Time)} {visit : Visit Time}

theorem Service.lastGaps_of_returned (returned : visit.returned = true) :
    service.lastGaps (visits ++ [visit]) = service.gapsIn visit.before.world := by
  have last : [visit].filter Visit.returned = [visit] := by simp [returned]
  rw [lastGaps, List.filter_append, last, List.getLast?_concat]
  rfl

theorem Service.lastGaps_of_failed (failed : visit.returned = false) :
    service.lastGaps (visits ++ [visit]) = service.lastGaps visits := by
  have none_last : [visit].filter Visit.returned = [] := by simp [failed]
  rw [lastGaps, List.filter_append, none_last, List.append_nil, lastGaps]

variable [Timekeeping Time]

namespace Session

/-- One call: it fails and leaves the service as it is without a word of it, or it returns, and what
is kept and said are the gaps of its record. -/
theorem visit_cases (session : Session Time) (inquiry : Inquiry Time) :
    let visit := session.visit inquiry
    let gaps := session.service.gapsIn visit.before.world
    (∃ failure, visit.result = .error failure ∧ visit.after.service = session.service ∧
        serviceLog visit.after.world.trace = serviceLog visit.before.world.trace) ∨
      ∃ record, visit.result = .ok (record, gaps.getLast?) ∧
        visit.after.service = { session.service with lastErrors := gaps } ∧
        serviceLog visit.after.world.trace =
          serviceLog visit.before.world.trace ++ warnings inquiry.directory gaps := by
  intro visit gaps
  have runs := assembleAlong_runIn { session with world := inquiry.change session.world }
    inquiry.schedule inquiry.directory inquiry.limit
  obtain ⟨silent, tells⟩ := session.service.gather_silent (inquiry.change session.world)
    inquiry.schedule inquiry.directory inquiry.limit
  cases gathers : (session.service.gather inquiry.schedule inquiry.directory inquiry.limit).runIn
      (inquiry.change session.world) with
  | mk result after =>
      rw [gathers] at runs silent tells
      cases result with
      | error failure =>
          refine .inl ⟨failure, congrArg Prod.fst runs, ?_, ?_⟩
          · exact congrArg (fun run => run.2.service) runs
          · exact (congrArg (fun run => serviceLog run.2.world.trace) runs).trans silent
      | ok found =>
          obtain ⟨record, found⟩ := found
          obtain rfl : found = gaps := tells _ rfl
          refine .inr ⟨record, congrArg Prod.fst runs, ?_, ?_⟩
          · exact congrArg (fun run => run.2.service) runs
          · refine (congrArg (fun run => serviceLog run.2.world.trace) runs).trans ?_
            rw [serviceLog_append, serviceLog_warnings, silent]
            rfl

/-- On a fresh service in the same world, a call comes to the same. -/
theorem visit_fresh (session : Session Time) (inquiry : Inquiry Time) :
    let other := (⟨session.service.fresh, session.world⟩ : Session Time).visit inquiry
    other.result = (session.visit inquiry).result ∧
      other.after.world = (session.visit inquiry).after.world :=
  assembleAlong_fresh { session with world := inquiry.change session.world }
    inquiry.schedule inquiry.directory inquiry.limit

/-- One call goes on from what the calls before it have left. -/
theorem visit_remembers {session : Session Time}
    (remembers : session.service = service.after visits) (inquiry : Inquiry Time) :
    (session.visit inquiry).after.service = service.after (visits ++ [session.visit inquiry]) := by
  rcases session.visit_cases inquiry with ⟨failure, fails, kept, -⟩ | ⟨record, returns, kept, -⟩
  · have failed : (session.visit inquiry).returned = false := by
      rw [Visit.returned, fails]
      rfl
    rw [kept, remembers, Service.after, Service.after, Service.lastGaps_of_failed failed]
  · have returned : (session.visit inquiry).returned = true := by
      rw [Visit.returned, returns]
      rfl
    rw [kept, Service.after, Service.lastGaps_of_returned returned, remembers]
    rfl

/-- **After any calls a service remembers the gaps of the last one that has returned**, and is
otherwise as it was made. -/
theorem afterAll_remembers (inquiries : List (Inquiry Time)) {session : Session Time}
    (remembers : session.service = service.after visits) :
    (session.afterAll inquiries).service = service.after (visits ++ session.history inquiries) := by
  induction inquiries generalizing session visits with
  | nil => rwa [history, List.append_nil]
  | cons inquiry rest inductionHypothesis =>
      rw [afterAll, inductionHypothesis (visit_remembers remembers inquiry), history,
        List.append_assoc, List.singleton_append]

end Session

/-- A call that follows others on a service, and nothing of theirs shows in it. -/
structure Service.IsForgetful (service : Service Time) (visits : List (Visit Time))
    (current : Session Time) (inquiry : Inquiry Time) : Prop where
  /-- It comes to the same as on a fresh service in the same world. -/
  sameResult : (current.visit inquiry).result =
    ((⟨service.fresh, current.world⟩ : Session Time).visit inquiry).result
  sameWorld : (current.visit inquiry).after.world =
    ((⟨service.fresh, current.world⟩ : Session Time).visit inquiry).after.world
  /-- So does all that it can come to where several workers go about it. -/
  sameResults : ∀ result, current.CanComeTo inquiry result ↔
    (⟨service.fresh, current.world⟩ : Session Time).CanComeTo inquiry result
  /-- Only the gaps of the last record are remembered. -/
  remembers : (current.visit inquiry).after.service =
    { service with lastErrors := service.lastGaps (visits ++ [current.visit inquiry]) }
  /-- A call that returns reports the gaps of its record, and hands the last one over. -/
  returns : ∀ record gap, (current.visit inquiry).result = .ok (record, gap) →
    gap = (service.gapsIn (current.visit inquiry).before.world).getLast? ∧
      serviceLog (current.visit inquiry).after.world.trace =
        serviceLog (current.visit inquiry).before.world.trace ++
          warnings inquiry.directory (service.gapsIn (current.visit inquiry).before.world)
  /-- A call that fails, at whatever stage, leaves the service as it is without a word of it. -/
  fails : ∀ failure, (current.visit inquiry).result = .error failure →
    (current.visit inquiry).after.service = current.service ∧
      serviceLog (current.visit inquiry).after.world.trace =
        serviceLog (current.visit inquiry).before.world.trace

/-- **A service keeps no memory but that of the gaps in its last record.**  Whatever has been asked
before, and whatever has happened in the world between the calls, a call comes to what it would come
to on a fresh service, and what it leaves in the service are the gaps of the last call that has
returned. -/
theorem Session.visit_isForgetful (service : Service Time) (world : World Time)
    (past : List (Inquiry Time)) (next : Inquiry Time) :
    let start : Session Time := ⟨service.fresh, world⟩
    service.IsForgetful (start.history past) (start.afterAll past) next := by
  intro start
  have unasked : start.service = service.after [] := rfl
  have remembers : (start.afterAll past).service = service.after (start.history past) :=
    afterAll_remembers past unasked
  have isFresh : (start.afterAll past).service.fresh = service.fresh := by
    rw [remembers]
    rfl
  have gapsIn : ∀ world, (start.afterAll past).service.gapsIn world = service.gapsIn world := by
    intro world
    rw [remembers]
    rfl
  have same := (start.afterAll past).visit_fresh
  rw [isFresh] at same
  have cases_ := (start.afterAll past).visit_cases next
  simp only [gapsIn] at cases_
  exact
    { sameResult := (same next).1.symm
      sameWorld := (same next).2.symm
      sameResults := fun result => exists_congr fun schedule => by
        rw [(same { next with schedule := schedule }).1]
      remembers := visit_remembers remembers next
      returns := by
        intro record gap comes
        rcases cases_ with ⟨failure, fails, -⟩ | ⟨found, returns, -, said⟩
        · rw [fails] at comes
          cases comes
        · rw [returns] at comes
          obtain ⟨-, rfl⟩ := Prod.mk.inj (Except.ok.inj comes)
          exact ⟨rfl, said⟩
      fails := by
        intro failure comes
        rcases cases_ with ⟨other, fails, kept, said⟩ | ⟨found, returns, -⟩
        · exact ⟨kept, said⟩
        · rw [returns] at comes
          cases comes }

end Remembering

/-- That a directory is not there is noticed last, and a gap that has been found by then is
dropped. -/
example :
    let withoutAnswer (key : String) (world : World Rat) : World Rat :=
      { world with
        script := (answeringWorld 0).script.set key { code := 1, takes := 0 } }
    let start : Session Rat := ⟨answeredService 8 1, answeringWorld 0⟩
    let visits := start.history [
      { change := withoutAnswer "config --get remote.origin.url", directory := "/" },
      { change := withoutAnswer "rev-parse HEAD", directory := "nowhere" }
    ]
    visits.map (fun visit =>
        (visit.returned, visit.after.service.lastErrors.map Problem.fieldName?)) =
      [(true, [some "remote_url"]), (false, [some "remote_url"])] := by
  decide +kernel

end Provenance.Assembly
