import Provenance.Proofs.Assembly.Stage

/-!
Contract: the course of an assembly that asks one question after another.

Owns:
- `Course` and `Service.course`, which say by the answers alone which calls are
  made, when, and at which failure they stop;
- `Service.RunsThrough`, a program that takes the course of some stages, with one
  law for each way in which such programs are put together;
- `Service.gatherUntil_runsThrough`, the law that an assembly takes the course of all
  eight stages.

Does **not** own: what follows from the course, and asking side by side.

## Why the course is a list

An assembly is a program over a world that changes while it runs.  Its course reads
the answers from the world it starts in, so laws about calls and clocks are
inductions on the list of stages and never look into a program again.
-/

set_option autoImplicit false

namespace Provenance.Assembly

open Failure (Problem Fault)
open World (Timekeeping Call)

/-- The calls that are made, the moment at which they are over, and the failure that stops them. -/
structure Course where
  made : List (Call Rat)
  clock : Rat
  failure : Option Failure

namespace Course

/-- How a course ends: with its failure, or with what comes after it. -/
def ending {α : Type} (course : Course) (value : Except Failure α) : Except Failure α :=
  match course.failure with
  | some failure => .error failure
  | none => value

def cons (call : Call Rat) (course : Course) : Course :=
  { course with made := call :: course.made }

end Course

namespace Service

variable (service : Service Rat) (world : World Rat) (directory : String)
  (deadline : Option Rat)

/-- The course of some stages from a moment on. -/
def course : List Stage → Rat → Course
  | [], clock => ⟨[], clock, none⟩
  | stage :: rest, clock =>
    if isPast deadline clock then ⟨[], clock, some deadlineExceeded⟩
    else
      match service.fault? stage directory with
      | some fault => ⟨[], clock, some (.fault fault)⟩
      | none =>
        let call := service.callAt stage directory deadline clock
        let after := clock + service.lastsAt stage world deadline clock
        match service.failure? stage directory world (service.limitAt deadline clock) with
        | some failure => ⟨[call], after, some failure⟩
        | none => (course rest after).cons call

def outcome (query : Query) : Outcome :=
  .ofResult (service.read query (Git.Client.printed world (service.arguments (.fact query))))

def facts : Facts :=
  .ofOutcomes (Query.all.map fun query => (query, service.outcome world query))

end Service

def baseDirIn (world : World Rat) : String :=
  Git.firstLine (Git.Client.printed world Git.Client.Arguments.root).1

/-- The location of a remote, or the problem of a remote without one. -/
def location (remoteUrl : String) : Except Failure String :=
  if remoteUrl.isEmpty then .ok ""
  else if (Remote.canonical remoteUrl).isEmpty then
    .error (Failure.git .remoteUrl ("cannot parse remote url " ++ Text.quoted remoteUrl))
  else .ok (Remote.canonical remoteUrl)

/-- What an assembly comes to once all calls have been answered. -/
def conclusion (world : World Rat) (directory baseDir : String) (facts : Facts) :
    Except Failure (Record × List Problem) :=
  (location facts.remoteUrl).bind fun gitUrl =>
    (Location.relativeTo baseDir directory
      (World.resolve world.files world.cwd directory)).bind fun relDir =>
        .ok (facts.toRecord baseDir relDir gitUrl, facts.gaps)

/-! ## The course stage by stage -/

namespace Service

section Steps

variable {service : Service Rat} {world : World Rat} {directory : String}
  {deadline : Option Rat} {stage : Stage} {rest : List Stage} {clock : Rat}

theorem course_cons_of_isPast (past : isPast deadline clock = true) :
    service.course world directory deadline (stage :: rest) clock =
      ⟨[], clock, some deadlineExceeded⟩ := by
  rw [course, if_pos past]

theorem course_cons_of_fault {fault : Fault} (notPast : isPast deadline clock = false)
    (unspoken : service.fault? stage directory = some fault) :
    service.course world directory deadline (stage :: rest) clock =
      ⟨[], clock, some (.fault fault)⟩ := by
  simp only [course, notPast, unspoken, Bool.false_eq_true, if_false]

theorem course_cons_of_failure {failure : Failure} (notPast : isPast deadline clock = false)
    (spoken : service.fault? stage directory = none)
    (fails : service.failure? stage directory world (service.limitAt deadline clock) =
      some failure) :
    service.course world directory deadline (stage :: rest) clock =
      ⟨[service.callAt stage directory deadline clock],
        clock + service.lastsAt stage world deadline clock, some failure⟩ := by
  simp only [course, notPast, spoken, fails, Bool.false_eq_true, if_false]

theorem course_cons_of_pass (notPast : isPast deadline clock = false)
    (spoken : service.fault? stage directory = none)
    (passes : service.failure? stage directory world (service.limitAt deadline clock) = none) :
    service.course world directory deadline (stage :: rest) clock =
      (service.course world directory deadline rest
        (clock + service.lastsAt stage world deadline clock)).cons
          (service.callAt stage directory deadline clock) := by
  simp only [course, notPast, spoken, passes, Bool.false_eq_true, if_false]

end Steps

/-- **What the first stage does to a course.**  It is not called, or its call is the last one, or the
course goes on with the rest. -/
theorem course_cons_cases (service : Service Rat) (world : World Rat) (directory : String)
    (deadline : Option Rat) (stage : Stage) (rest : List Stage) (clock : Rat) :
    (∃ failure, service.course world directory deadline (stage :: rest) clock =
      ⟨[], clock, some failure⟩) ∨
    isPast deadline clock = false ∧ service.fault? stage directory = none ∧
      ((∃ failure, service.course world directory deadline (stage :: rest) clock =
          ⟨[service.callAt stage directory deadline clock],
            clock + service.lastsAt stage world deadline clock, some failure⟩) ∨
        service.course world directory deadline (stage :: rest) clock =
          (service.course world directory deadline rest
            (clock + service.lastsAt stage world deadline clock)).cons
              (service.callAt stage directory deadline clock)) := by
  cases past : isPast deadline clock with
  | true => exact .inl ⟨_, course_cons_of_isPast past⟩
  | false =>
      cases spoken : service.fault? stage directory with
      | some fault => exact .inl ⟨_, course_cons_of_fault past spoken⟩
      | none =>
          refine .inr ⟨rfl, rfl, ?_⟩
          cases fails : service.failure? stage directory world
              (service.limitAt deadline clock) with
          | some failure => exact .inl ⟨_, course_cons_of_failure past spoken fails⟩
          | none => exact .inr (course_cons_of_pass past spoken fails)

end Service

/-! ## Outcomes one after another -/

theorem outcomeOf_runIn {Time : Type} (ask : Query → Program Time Finding) (query : Query)
    (world : World Time) :
    (outcomeOf ask query).runIn world =
      (.ok (.ofResult ((ask query).runIn world).1), ((ask query).runIn world).2) := rfl

theorem Sequential.outcomes_cons {Time : Type} (ask : Query → Program Time Finding)
    (query : Query) (rest : List Query) :
    Sequential.outcomes ask (query :: rest) =
      outcomeOf ask query >>= fun outcome =>
        match outcome.stop? with
        | some failure => Program.fail failure
        | none => (fun others => (query, outcome) :: others) <$> Sequential.outcomes ask rest := by
  rw [Sequential.outcomes]
  refine congrArg (outcomeOf ask query >>= ·) (funext fun outcome => ?_)
  simp only [map_eq_pure_bind]
  cases outcome <;> rfl

/-! ## Programs that take a course -/

namespace Service

section RunsThrough

variable (service : Service Rat) (world : World Rat) (directory : String)
  (deadline : Option Rat) {α β : Type}

/-- A program that takes the course of some stages, in every world that has gone on from `world`,
and comes to `value` where nothing stops it. -/
def RunsThrough (stages : List Stage) (program : Program Rat α) (value : Except Failure α) :
    Prop :=
  ∀ (current : World Rat) (made : List (Call Rat)), world.Follows current made →
    ∃ after,
      program.runIn current =
          ((service.course world directory deadline stages current.clock).ending value, after) ∧
        current.Follows after
          (service.course world directory deadline stages current.clock).made ∧
        after.clock = (service.course world directory deadline stages current.clock).clock

variable {service world directory deadline} {stages rest : List Stage} {stage : Stage}
  {program : Program Rat α} {value : Except Failure α}

theorem RunsThrough.nil
    (still : ∀ (current : World Rat) (made : List (Call Rat)), world.Follows current made →
      program.runIn current = (value, current)) :
    service.RunsThrough world directory deadline [] program value := by
  intro current made follows
  exact ⟨current, still current made follows, .refl current, rfl⟩

theorem RunsThrough.congr {other : Program Rat α}
    (through : service.RunsThrough world directory deadline stages other value)
    (same : ∀ current, program.runIn current = other.runIn current) :
    service.RunsThrough world directory deadline stages program value := by
  intro current made follows
  rw [same current]
  exact through current made follows

/-- What is only read off the result of a program does not change its course. -/
theorem RunsThrough.bind_read {next : α → Program Rat β} {read : α → Except Failure β}
    (through : service.RunsThrough world directory deadline stages program value)
    (reads : ∀ (result : α) (current : World Rat) (made : List (Call Rat)),
      world.Follows current made → (next result).runIn current = (read result, current)) :
    service.RunsThrough world directory deadline stages (program >>= next)
      (value.bind read) := by
  intro current made follows
  obtain ⟨after, runs, goesOn, clock⟩ := through current made follows
  refine ⟨after, ?_, goesOn, clock⟩
  rw [Program.runIn_bind, runs]
  unfold Course.ending
  cases (service.course world directory deadline stages current.clock).failure with
  | some failure => rfl
  | none =>
      cases value with
      | error failure => rfl
      | ok result => exact reads result after _ (follows.trans goesOn)

/-- **One stage further.**  A program that makes the call of a stage, fails as the exit means, and
else goes on along the rest, takes the course of the stage and the rest. -/
theorem RunsThrough.call {next : String × Int → Program Rat α}
    (refuses : ∀ failure,
      service.refusal? directory stage
          (Git.Client.printed world (service.arguments stage)) = some failure →
        ∀ current, (next (Git.Client.printed world (service.arguments stage))).runIn current =
          (.error failure, current))
    (passes : service.refusal? directory stage
          (Git.Client.printed world (service.arguments stage)) = none →
        service.RunsThrough world directory deadline rest
          (next (Git.Client.printed world (service.arguments stage))) value) :
    service.RunsThrough world directory deadline (stage :: rest)
      (service.call stage directory deadline >>= next) value := by
  intro current made follows
  by_cases past : isPast deadline current.clock = true
  · rw [course_cons_of_isPast past]
    refine ⟨current, ?_, .refl current, rfl⟩
    exact Program.runIn_bind_of_error (call_runIn_of_isPast service stage directory past) next
  have notPast : isPast deadline current.clock = false := by simpa using past
  cases spoken : service.fault? stage directory with
  | some fault =>
      rw [course_cons_of_fault notPast spoken]
      obtain ⟨after, calls, announced, clock⟩ :=
        call_runIn_of_fault service stage directory notPast spoken
      exact ⟨after, Program.runIn_bind_of_error calls next, announced, clock⟩
  | none =>
      obtain ⟨after, calls, called, clock⟩ := call_runIn service stage directory notPast spoken
      -- The answer does not depend on what has been called, so it is read off `world`.
      have lasts : service.lastsAt stage current deadline current.clock =
          service.lastsAt stage world deadline current.clock := by
        unfold lastsAt
        rw [follows.script]
      rw [Git.Client.reply_of_follows _ _ _ _ follows] at calls
      rw [lasts] at clock
      have means : service.failure? stage directory world
          (service.limitAt deadline current.clock) = _ :=
        failure?_of_reply service stage directory
      rw [Program.runIn_bind, calls]
      cases replies : service.client.reply world (service.arguments stage) directory
          (service.limitAt deadline current.clock) with
      | error failure =>
          rw [replies] at means
          rw [course_cons_of_failure notPast spoken means]
          exact ⟨after, rfl, called, clock⟩
      | ok printed =>
          rw [replies] at means
          obtain rfl := Git.Client.eq_printed_of_reply _ _ _ _ replies
          cases refused : service.refusal? directory stage
              (Git.Client.printed world (service.arguments stage)) with
          | some failure =>
              rw [course_cons_of_failure notPast spoken (means.trans refused)]
              exact ⟨after, refuses failure refused after, called, clock⟩
          | none =>
              obtain ⟨last, runs, others, ends⟩ := passes refused after _ (follows.trans called)
              rw [clock] at runs others ends
              rw [course_cons_of_pass notPast spoken (means.trans refused)]
              exact ⟨last, runs, called.trans others, ends⟩

/-- A stage whose exit is read, where reading fails just as the exit is refused. -/
theorem RunsThrough.call_read {γ : Type} {read : String × Int → Except Failure γ}
    {next : γ → Program Rat α} {passed : γ}
    (reads : read (Git.Client.printed world (service.arguments stage)) =
      match service.refusal? directory stage
        (Git.Client.printed world (service.arguments stage)) with
      | some failure => .error failure
      | none => .ok passed)
    (through : service.RunsThrough world directory deadline rest (next passed) value) :
    service.RunsThrough world directory deadline (stage :: rest)
      (service.call stage directory deadline >>= fun printed =>
        Program.ofResult (read printed) >>= next) value := by
  refine RunsThrough.call (fun failure refused current => ?_) (fun passes => ?_)
  · rw [reads, refused]
    rfl
  · rw [reads, passes]
    exact through.congr fun current => rfl

theorem RunsThrough.map (change : α → β)
    (through : service.RunsThrough world directory deadline stages program value) :
    service.RunsThrough world directory deadline stages (change <$> program)
      (value.map change) := by
  rw [map_eq_pure_bind]
  have reads := through.bind_read fun result current made follows =>
    Program.runIn_pure (change result) current
  cases value <;> exact reads

end RunsThrough

/-! ## An assembly takes its course -/

section Gathering

variable (service : Service Rat) (world : World Rat) (directory : String)
  (deadline : Option Rat)

private theorem outcomes_cons_runIn (query : Query) (rest : List Query) (current : World Rat) :
    (Sequential.outcomes (ask service.client service.remote directory deadline)
        (query :: rest)).runIn current =
      (service.call (.fact query) directory deadline >>= fun printed =>
        (fun others => (query, .ofResult (service.read query printed)) :: others) <$>
          Sequential.outcomes (ask service.client service.remote directory deadline)
            rest).runIn current := by
  rw [Sequential.outcomes_cons, Program.runIn_bind, Program.runIn_bind, outcomeOf_runIn, ask_eq,
    Program.runIn_bind_read (fun printed reached => Program.runIn_ofResult _ reached)]
  cases calls : (service.call (.fact query) directory deadline).runIn current with
  | mk result after =>
      cases result with
      | error failure =>
          have stops := stop?_ofResult_error (leavesGap_of_call service _ directory calls)
          simp only [Except.bind, stops]
          rfl
      | ok printed =>
          have passes := stop?_ofResult_read service query printed
          simp only [Except.bind, passes]

/-- The queries take the course of their stages, and come to their outcomes. -/
theorem outcomes_runsThrough (queries : List Query) :
    service.RunsThrough world directory deadline (queries.map .fact)
      (Sequential.outcomes (ask service.client service.remote directory deadline) queries)
      (.ok (queries.map fun query => (query, service.outcome world query))) := by
  induction queries with
  | nil => exact .nil fun current made follows => rfl
  | cons query rest inductionHypothesis =>
      refine RunsThrough.congr ?_ (outcomes_cons_runIn service directory deadline query rest)
      refine RunsThrough.call (fun failure refused => ?_) (fun passes => ?_)
      · cases refused
      · exact inductionHypothesis.map _

private theorem locationOf_runIn (remoteUrl : String) :
    (locationOf remoteUrl : Program Rat String).runIn world = (location remoteUrl, world) := by
  unfold locationOf location
  by_cases absent : remoteUrl.isEmpty = true
  · rw [if_pos absent, if_pos absent, Program.runIn_pure]
  · rw [if_neg absent, if_neg absent]
    simp only
    by_cases nowhere : (Remote.canonical remoteUrl).isEmpty = true
    · rw [if_pos nowhere, if_pos nowhere, Program.runIn_failWith]
    · rw [if_neg nowhere, if_neg nowhere, Program.runIn_pure]

private theorem relativeDirectory_runIn (baseDir : String) :
    (Location.relativeDirectory baseDir directory : Program Rat String).runIn world =
      (Location.relativeTo baseDir directory
        (World.resolve world.files world.cwd directory), world) := by
  unfold Location.relativeDirectory
  simp only [Program.runIn_bind, Program.runIn_world]
  generalize Location.relativeTo baseDir directory
    (World.resolve world.files world.cwd directory) = placed
  cases placed with
  | error failure => exact Program.runIn_fail failure world
  | ok relDir => exact Program.runIn_pure relDir world

theorem conclude_runIn (baseDir : String) (facts : Facts) :
    (conclude directory baseDir facts).runIn world =
      (conclusion world directory baseDir facts, world) := by
  unfold conclude conclusion
  rw [Program.runIn_bind, locationOf_runIn]
  cases location facts.remoteUrl with
  | error failure => rfl
  | ok gitUrl =>
      simp only [Program.runIn_bind, relativeDirectory_runIn]
      cases Location.relativeTo baseDir directory
          (World.resolve world.files world.cwd directory) with
      | error failure => rfl
      | ok relDir => rfl

theorem conclusion_of_follows {current : World Rat} {made : List (Call Rat)}
    (follows : world.Follows current made) (baseDir : String) (facts : Facts) :
    conclusion current directory baseDir facts = conclusion world directory baseDir facts := by
  unfold conclusion
  rw [follows.files, follows.cwd]

/-- **The law of an assembly.**  One question after another, an assembly takes the course of all
stages, and then comes to what the answers amount to. -/
theorem gatherUntil_runsThrough (sequential : service.parallel ≤ 1)
    (schedule : Pool.Schedule) :
    service.RunsThrough world directory deadline Stage.all
      (service.gatherUntil schedule directory deadline)
      (conclusion world directory (baseDirIn world) (service.facts world)) := by
  have asked := (outcomes_runsThrough service world directory deadline Query.all).map
    Facts.ofOutcomes
  have concluded := asked.bind_read
    (fun facts current made follows =>
      (conclude_runIn current directory (baseDirIn world) facts).trans
        (by rw [conclusion_of_follows world directory follows]))
  unfold Service.gatherUntil Service.collect Sequential.collect
  rw [requireRepository_eq, rootOf_eq]
  simp only [bind_assoc, if_pos sequential]
  exact RunsThrough.call_read (readStatus_eq service directory _)
    (RunsThrough.call_read (readRoot_eq service directory _) concluded)

end Gathering
end Service
end Provenance.Assembly
