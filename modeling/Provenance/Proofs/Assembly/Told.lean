import Provenance.Proofs.Assembly.Course
import Provenance.Proofs.Assembly.Pool
import Provenance.Proofs.Git.Output
import Provenance.Proofs.World.Invariant

/-!
Contract: what the answers of version control tell an assembly that returns.

Owns:
- `Service.told` and `Service.factsBy`, the facts that a script tells;
- `Service.collect_keeps`: whatever is collected, one after another or side by side, is these;
- `Service.assembleAlong_keeps`: so is whatever a record is made of;
- `Service.assembleAlong_keeps_concluded`: what holds of whatever is concluded from these facts, holds
  of every record.

Does **not** own: when an assembly returns, and what the facts mean.

## Why any measure of time will do

Limits and clocks decide whether a call is answered, and not by what.  So laws about
what is read off the answers need nothing of the measure of time.
-/

set_option autoImplicit false

namespace Provenance.Assembly

open Failure (Problem Fault)
open Program (Keeps)
open World (Timekeeping Lasting Questioned)

variable {Time : Type}

/-! ## Failures -/

/-- A failure that no record is made in spite of, and that shows in an exit code. -/
structure IsSevere (failure : Failure) : Prop where
  leavesNoGap : leavesGap failure = false
  shows : failure.Shows

theorem shows_of_relativeTo {base directory : String}
    {resolved : Except Fault World.Place} {failure : Failure}
    (fails : Location.relativeTo base directory resolved = .error failure) :
    failure.Shows := by
  unfold Location.relativeTo at fails
  cases resolved with
  | error fault =>
      obtain rfl := Except.error.inj fails
      unfold Location.unresolved
      split
      · exact Failure.shows_git _ _
      · exact Failure.shows_fault _
  | ok place =>
      simp only at fails
      split at fails
      · split at fails
        · cases fails
        · obtain rfl := Except.error.inj fails
          exact Failure.shows_git _ _
      · obtain rfl := Except.error.inj fails
        exact Failure.shows_git _ _

theorem isSevere_fault (fault : Fault) : IsSevere (.fault fault) :=
  ⟨rfl, Failure.shows_fault fault⟩

/-! ## Calls -/

section Calls

variable [Timekeeping Time] {invariant : World Time → Prop} {script : Git.Script Time}
  (client : Git.Client Time) (arguments : List String) (directory : String)

theorem advance_keeps (timed : World.Timed invariant) (span : Time) :
    Keeps invariant (Git.Client.advance span) (fun _ => True) IsSevere :=
  Keeps.world.bind fun _ _ => (Keeps.ofFault isSevere_fault).bind fun clock _ =>
    .change fun current => timed current clock

omit [Timekeeping Time] in
theorem settle_keeps (answer : Git.Answer Time) :
    Keeps invariant (client.settle answer)
      (fun outcome => ∀ output errors code, outcome = .exited output errors code →
        (output, code) = (Git.outputText answer.output, answer.code)) IsSevere := by
  unfold Git.Client.settle
  split
  · exact .fail (isSevere_fault _)
  · split
    · exact .pure fun _ _ _ same => by cases same
    · exact .pure fun _ _ _ same => by cases same
    · exact .pure fun _ _ _ same => by cases same
    · exact .fail (isSevere_fault _)
    · exact .fail (isSevere_fault _)
    · refine .pure fun output errors code same => ?_
      obtain ⟨rfl, rfl, rfl⟩ := Git.Outcome.exited.inj same
      rfl

/-- A call that exits prints what its script says. -/
theorem call_keeps (questioned : Questioned script Git.loggerName invariant) (limit : Time) :
    Keeps invariant (client.call arguments directory limit)
      (fun outcome => ∀ output errors code, outcome = .exited output errors code →
        (output, code) = script.printed arguments) IsSevere := by
  unfold Git.Client.call
  split
  · exact .fail (isSevere_fault _)
  refine Keeps.world.bind fun world holds => ?_
  have recorded : ∀ call, Keeps invariant (Program.record (.called call) : Program Time Unit)
      (fun _ => True) IsSevere := fun call => .change fun current => questioned.called current call
  refine (recorded _).bind fun _ _ => ?_
  refine (Keeps.ofFault isSevere_fault).bind fun isCutOff _ => ?_
  rw [questioned.tells world holds]
  cases isCutOff with
  | true =>
      exact (advance_keeps questioned.timed limit).bind fun _ _ =>
        .pure fun _ _ _ same => by cases same
  | false => exact (advance_keeps questioned.timed _).bind fun _ _ => settle_keeps client _

/-- Only a call that has exited is reported as printed. -/
theorem report_keeps (heard : World.StableUnder Git.loggerName invariant) (line : String)
    (limit : Time) (outcome : Git.Outcome) :
    Keeps invariant (client.report line directory limit outcome)
      (fun printed => ∃ errors, outcome = .exited printed.1 errors printed.2) IsSevere := by
  cases outcome with
  | expired =>
      exact (Keeps.ofFault isSevere_fault).bind fun _ _ =>
        (Keeps.logUnder heard _ _).bind fun _ _ => .fail ⟨rfl, Failure.shows_git _ _⟩
  | missing =>
      refine Keeps.world.bind fun world _ => ?_
      split
      · exact .fail ⟨rfl, Failure.shows_git _ _⟩
      · exact .fail ⟨rfl, Failure.shows_git _ _⟩
  | notADirectory => exact .fail ⟨rfl, Failure.shows_git _ _⟩
  | exited output errors code =>
      unfold Git.Client.report
      simp only
      split
      · exact (Keeps.logUnder heard _ _).bind fun _ _ => .pure ⟨errors, rfl⟩
      · exact .pure ⟨errors, rfl⟩

/-- **A call that is answered prints what its script says**, and no failure of a call leaves a
gap. -/
theorem run_keeps (questioned : Questioned script Git.loggerName invariant) (left : Option Time) :
    Keeps invariant (client.run arguments directory left)
      (fun printed => printed = script.printed arguments) IsSevere :=
  (Keeps.ofFault isSevere_fault).bind fun limit _ =>
    (Keeps.ofFault isSevere_fault).bind fun line _ =>
      (Keeps.logUnder questioned.heard _ _).bind fun _ _ =>
        (call_keeps client arguments directory questioned limit).bind fun outcome told =>
          (report_keeps client directory questioned.heard line limit outcome).weaken
            (fun _ ⟨_, exits⟩ => told _ _ _ exits) fun _ severe => severe

end Calls

/-! ## Queries -/

/-- What an answer says about a fact. -/
def Service.told (service : Service Time) (script : Git.Script Time) (query : Query) :
    Except Failure Finding :=
  service.read query (script.printed (service.arguments (.fact query)))

/-- The facts that a script tells. -/
def Service.factsBy (service : Service Time) (script : Git.Script Time) : Facts :=
  .ofOutcomes (Query.all.map fun query => (query, .ofResult (service.told script query)))

section Queries

variable [Timekeeping Time] {invariant : World Time → Prop} {script : Git.Script Time}
  (service : Service Time) (questioned : Questioned script Git.loggerName invariant)
  (directory : String) (deadline : Option Time)

theorem remaining_keeps :
    Keeps invariant (remaining deadline) (fun _ => True) IsSevere := by
  cases deadline with
  | none => exact .pure trivial
  | some moment =>
      refine Keeps.world.bind fun world _ => (Keeps.ofFault isSevere_fault).bind fun left _ =>
        (Keeps.ofFault isSevere_fault).bind fun isSpent _ => ?_
      cases isSpent with
      | true => exact .fail ⟨rfl, Failure.shows_git _ _⟩
      | false => exact .pure trivial

include questioned

theorem Service.call_keeps (stage : Stage) :
    Keeps invariant (service.call stage directory deadline)
      (fun printed => printed = script.printed (service.arguments stage)) IsSevere := by
  refine (remaining_keeps deadline).bind fun left _ => ?_
  split
  · exact .fail (isSevere_fault _)
  · exact run_keeps service.client _ directory questioned left

/-- What is asked is told by the script, and so is a failure that leaves a gap. -/
theorem ask_keeps (query : Query) :
    Keeps invariant (ask service.client service.remote directory deadline query)
      (fun finding => service.told script query = .ok finding)
      fun failure => IsSevere failure ∨ service.told script query = .error failure := by
  rw [ask_eq]
  refine Keeps.bind ((service.call_keeps questioned directory deadline (.fact query)).weaken
    (fun _ told => told) fun _ => .inl) fun printed told => ?_
  subst told
  exact .ofResult (fun _ same => same) fun _ same => .inr same

/-- What a query can come to: what the script tells, or a failure that ends the assembly. -/
def Service.Admits (service : Service Time) (script : Git.Script Time) (query : Query)
    (outcome : Outcome) : Prop :=
  outcome = .ofResult (service.told script query) ∨
    ∃ failure, outcome.stop? = some failure ∧ failure.Shows

omit [Timekeeping Time] questioned in
theorem Service.Admits.eq_ofResult {service : Service Time} {script : Git.Script Time}
    {query : Query} {outcome : Outcome} (admits : service.Admits script query outcome)
    (passes : outcome.stop? = none) : outcome = .ofResult (service.told script query) := by
  rcases admits with told | ⟨failure, stops, -⟩
  · exact told
  · rw [passes] at stops
    cases stops

omit [Timekeeping Time] questioned in
theorem Service.Admits.shows {service : Service Time} {script : Git.Script Time}
    {query : Query} {outcome : Outcome} (admits : service.Admits script query outcome)
    {failure : Failure} (stops : outcome.stop? = some failure) : failure.Shows := by
  rcases admits with rfl | ⟨other, stopsToo, severe⟩
  · rw [Service.told, stop?_ofResult_read] at stops
    cases stops
  · rw [stopsToo] at stops
    obtain rfl := Option.some.inj stops
    exact severe

theorem outcomeOf_keeps (query : Query) {ends : Failure → Prop} :
    Keeps invariant
      (outcomeOf (ask service.client service.remote directory deadline) query)
      (service.Admits script query) ends := by
  have attempted : Keeps invariant
      (Program.attempt (ask service.client service.remote directory deadline query))
      (fun result => service.Admits script query (.ofResult result)) ends := by
    refine .attempt ((ask_keeps service questioned directory deadline query).weaken ?_ ?_)
    · intro finding told
      exact .inl (by rw [told])
    · rintro failure (severe | told)
      · exact .inr ⟨failure, stop?_ofResult_error severe.leavesNoGap, severe.shows⟩
      · exact .inl (by rw [told])
  exact attempted.bind fun result admits => .pure admits

/-! ## One query after another -/

theorem outcomes_keeps (queries : List Query) :
    Keeps invariant
      (Sequential.outcomes (ask service.client service.remote directory deadline) queries)
      (fun outcomes => outcomes =
        queries.map fun query => (query, .ofResult (service.told script query)))
      Failure.Shows := by
  induction queries with
  | nil => exact .pure rfl
  | cons query rest inductionHypothesis =>
      rw [Sequential.outcomes_cons]
      refine (outcomeOf_keeps service questioned directory deadline query).bind
        fun outcome admits => ?_
      cases stops : outcome.stop? with
      | some failure => exact .fail (admits.shows stops)
      | none =>
          obtain rfl := admits.eq_ofResult stops
          exact inductionHypothesis.map fun others told => by rw [told, List.map_cons]

/-! ## Queries side by side -/

/-- A state that a pool can be in: a sound one, with outcomes that the script admits. -/
def Service.CanReach (service : Service Time) (script : Git.Script Time) (workers : Nat)
    (hasDeadline : Bool) (state : Pool.State) : Prop :=
  ∃ outcome : Query → Outcome, (∀ query, service.Admits script query (outcome query)) ∧
    Pool.Sound outcome workers hasDeadline state

omit [Timekeeping Time] questioned in
theorem canReach_initial (workers : Nat) (hasDeadline : Bool) :
    service.CanReach script workers hasDeadline {} :=
  ⟨fun _ => .unfinished, fun _ => .inr ⟨_, rfl, Failure.shows_fault _⟩, Pool.sound_initial⟩

/-- One step of a pool. -/
theorem advance_keeps_canReach (workers : Nat) (hasDeadline : Bool) (step : Pool.Step)
    {state : Pool.State} (reached : service.CanReach script workers hasDeadline state) :
    Keeps invariant
      (Pool.advance workers hasDeadline
        (ask service.client service.remote directory deadline) state step)
      (service.CanReach script workers hasDeadline) Failure.Shows := by
  obtain ⟨outcome, admits, sound⟩ := reached
  have stays := Pool.sound_next sound step
  cases step with
  | start query =>
      rw [Pool.advance]
      split
      · next may =>
          refine (outcomeOf_keeps service questioned directory deadline query).bind
            fun found admitsFound => .pure ⟨_, ?_, sound.start may found⟩
          intro other
          by_cases same : other = query
          · subst same
            rw [Function.update_self]
            exact admitsFound
          · rw [Function.update_of_ne same]
            exact admits other
      · exact .pure ⟨outcome, admits, sound⟩
  | finish query => exact .pure ⟨outcome, admits, stays⟩
  | note query => exact .pure ⟨outcome, admits, stays⟩
  | expire => exact .pure ⟨outcome, admits, stays⟩

/-- Every schedule. -/
theorem pool_keeps_canReach (workers : Nat) (hasDeadline : Bool) (schedule : Pool.Schedule)
    {state : Pool.State} (reached : service.CanReach script workers hasDeadline state) :
    Keeps invariant
      (Pool.run workers hasDeadline
        (ask service.client service.remote directory deadline) state schedule)
      (service.CanReach script workers hasDeadline) Failure.Shows := by
  induction schedule generalizing state with
  | nil => exact .pure reached
  | cons step rest inductionHypothesis =>
      exact (advance_keeps_canReach service questioned directory deadline workers hasDeadline step
        reached).bind fun _ reachedNext => inductionHypothesis reachedNext

omit [Timekeeping Time] questioned in
/-- What a pool has come to, if anything: a failure that shows, or what the script tells. -/
theorem result_of_canReach {workers : Nat} {hasDeadline : Bool} {state : Pool.State}
    (reached : service.CanReach script workers hasDeadline state) :
    (∀ facts, state.result = .ok (some facts) → facts = service.factsBy script) ∧
      ∀ failure, state.result = .error failure → failure.Shows := by
  obtain ⟨outcome, admits, sound⟩ := reached
  unfold Pool.State.result
  cases verdict : state.verdict with
  | some failure =>
      refine ⟨fun facts comes => (by cases comes), fun other comes => ?_⟩
      obtain rfl := Except.error.inj comes
      rcases sound.closed failure verdict with ⟨query, isFatal⟩ | ⟨-, rfl⟩
      · exact (admits query).shows (by rw [isFatal]; rfl)
      · exact Failure.shows_git _ _
  | none =>
      refine ⟨fun facts comes => ?_, fun other comes => by cases comes⟩
      cases complete : state.isComplete with
      | false =>
          rw [complete] at comes
          cases comes
      | true =>
          rw [complete] at comes
          obtain rfl := Option.some.inj (Except.ok.inj comes)
          rw [sound.outcomes_of_isComplete complete, Service.factsBy]
          refine congrArg Facts.ofOutcomes (List.map_congr_left fun query _ => ?_)
          obtain ⟨ended, harmless⟩ := sound.harmless_of_isComplete complete verdict query
          refine congrArg (query, ·) ((admits query).eq_ofResult ?_)
          cases comes : outcome query with
          | unfinished => exact absurd comes ended
          | fatal failure => exact absurd comes (harmless failure)
          | _ => rfl

/-! ## The whole assembly -/

/-- **Whatever is collected is what the script tells**, one after another or side by side. -/
theorem Service.collect_keeps (schedule : Pool.Schedule) :
    Keeps invariant (service.collect schedule directory deadline)
      (fun facts => facts = service.factsBy script) Failure.Shows := by
  unfold Service.collect
  simp only
  split
  · exact (outcomes_keeps service questioned directory deadline Query.all).map
      fun outcomes told => by rw [told, Service.factsBy]
  · have pooled : Keeps invariant
        (Pool.collect service.parallel deadline.isSome
          (ask service.client service.remote directory deadline) schedule)
        (fun found => ∀ facts, found = some facts → facts = service.factsBy script)
        Failure.Shows := by
      refine (pool_keeps_canReach service questioned directory deadline _ _ schedule
        (canReach_initial service _ _)).bind fun state reached => ?_
      obtain ⟨tells, severe⟩ := result_of_canReach service reached
      cases comes : state.result with
      | error failure => exact .fail (severe failure comes)
      | ok found => exact .pure fun facts same => tells facts (by rw [comes, same])
    refine pooled.bind fun found tells => ?_
    cases found with
    | none => exact .fail (Failure.shows_fault _)
    | some facts => exact .pure (tells facts rfl)

omit [Timekeeping Time] questioned in
/-- A remote has a canonical location, which is empty just if there is no remote. -/
theorem locationOf_keeps (remoteUrl : String) :
    Keeps invariant (locationOf remoteUrl : Program Time String)
      (fun gitUrl => gitUrl = Remote.canonical remoteUrl ∧ (gitUrl = "" ↔ remoteUrl = ""))
      Failure.Shows := by
  unfold locationOf
  split
  · next absent =>
      obtain rfl := String.isEmpty_iff.mp absent
      exact .pure ⟨rfl, Iff.rfl⟩
  · next given =>
      simp only
      split
      · exact .fail (Failure.shows_git _ _)
      · next located =>
          rw [String.isEmpty_iff] at given located
          exact .pure ⟨rfl, iff_of_false located given⟩

omit [Timekeeping Time] questioned in
/-- The relative path of a directory is found out where the program runs. -/
theorem relativeDirectory_keeps (baseDir : String) :
    Keeps invariant (Location.relativeDirectory baseDir directory : Program Time String)
      (fun relDir => ∃ current, invariant current ∧
        Location.relativeTo baseDir directory
          (World.resolve current.files current.cwd directory) = .ok relDir)
      Failure.Shows := by
  refine Keeps.world.bind fun current holds => ?_
  split
  · next relative comes => exact .pure ⟨current, holds, comes⟩
  · next failure comes => exact .fail (shows_of_relativeTo comes)

omit [Timekeeping Time] questioned in
theorem conclude_keeps (baseDir : String) (facts : Facts) :
    Keeps invariant (Service.conclude directory baseDir facts : Program Time _)
      (fun found => ∃ relDir gitUrl,
        found = (facts.toRecord baseDir relDir gitUrl, facts.gaps))
      Failure.Shows :=
  (locationOf_keeps facts.remoteUrl).bind fun gitUrl _ =>
    (relativeDirectory_keeps directory baseDir).bind fun relDir _ => .pure ⟨relDir, gitUrl, rfl⟩

/-- A record and its gaps are made of what the script tells. -/
def Service.IsToldBy (service : Service Time) (script : Git.Script Time)
    (found : Record × List Problem) : Prop :=
  ∃ baseDir relDir gitUrl,
    found = ((service.factsBy script).toRecord baseDir relDir gitUrl, (service.factsBy script).gaps)

/-- Whatever is made of the facts that the script tells, an assembly comes to it or fails so that it
shows. -/
theorem Service.gatherUntil_keeps {post : Record × List Problem → Prop}
    (concludes : ∀ baseDir, Keeps invariant
      (Service.conclude directory baseDir (service.factsBy script)) post Failure.Shows)
    (schedule : Pool.Schedule) :
    Keeps invariant (service.gatherUntil schedule directory deadline) post Failure.Shows := by
  have required : Keeps invariant (service.requireRepository directory deadline)
      (fun _ => True) Failure.Shows := by
    rw [requireRepository_eq]
    refine ((service.call_keeps questioned directory deadline .status).weaken (fun _ told => told)
      fun _ severe => severe.shows).bind fun printed _ => .ofResult (fun _ _ => trivial) ?_
    intro failure refuses
    unfold readStatus at refuses
    split at refuses
    · obtain rfl := Except.error.inj refuses
      exact Failure.shows_git _ _
    · cases refuses
  have rooted : Keeps invariant (service.rootOf directory deadline)
      (fun _ => True) Failure.Shows := by
    rw [rootOf_eq]
    refine ((service.call_keeps questioned directory deadline .root).weaken (fun _ told => told)
      fun _ severe => severe.shows).bind fun printed _ => .ofResult (fun _ _ => trivial) ?_
    intro failure refuses
    unfold Git.Client.readRoot at refuses
    split at refuses
    · obtain rfl := Except.error.inj refuses
      exact Failure.shows_git _ _
    · split at refuses
      · obtain rfl := Except.error.inj refuses
        exact Failure.shows_git _ _
      · cases refuses
  refine required.bind fun _ _ => rooted.bind fun baseDir _ =>
    (service.collect_keeps questioned directory deadline schedule).bind fun facts told => ?_
  subst told
  exact concludes baseDir

theorem Service.gather_keeps {post : Record × List Problem → Prop}
    (concludes : ∀ baseDir, Keeps invariant
      (Service.conclude directory baseDir (service.factsBy script)) post Failure.Shows)
    (schedule : Pool.Schedule) (limit : Option Time) :
    Keeps invariant (service.gather schedule directory limit) post Failure.Shows := by
  have deadlines : ∀ limit : Option Time, Keeps invariant (deadlineAfter limit)
      (fun _ => True) Failure.Shows := by
    intro limit
    cases limit with
    | none => exact .pure trivial
    | some span =>
        unfold deadlineAfter
        simp only
        split
        · exact Keeps.world.bind fun _ _ =>
            (Keeps.ofFault Failure.shows_fault).bind fun _ _ => .pure trivial
        · exact .pure trivial
  have found : Keeps invariant service.client.hasBinary
      (fun _ => True) Failure.Shows := by
    refine Keeps.world.bind fun world _ => ?_
    split
    · exact .pure trivial
    · split
      · exact .pure trivial
      · exact .pure trivial
    · exact .fail (Failure.shows_fault _)
  refine (deadlines _).bind fun deadline _ => found.bind fun isThere _ => ?_
  split
  · exact service.gatherUntil_keeps questioned directory deadline concludes schedule
  · exact .fail (Failure.shows_gitProblem _ _ _)

omit [Timekeeping Time] questioned in
theorem Service.conclude_keeps_told (baseDir : String) :
    Keeps invariant (Service.conclude directory baseDir (service.factsBy script))
      (service.IsToldBy script) Failure.Shows :=
  (conclude_keeps directory baseDir _).weaken
    (fun _ ⟨relDir, gitUrl, same⟩ => ⟨baseDir, relDir, gitUrl, same⟩) fun _ severe => severe

end Queries

section Records

variable [Timekeeping Time] {invariant : World Time → Prop} {script : Git.Script Time}
  (service : Service Time) (lasting : Lasting script invariant) (directory : String)

include lasting

/-- What is concluded is returned, and its gaps are kept. -/
theorem Service.assembleAlong_keeps_concluded {post : Record × List Problem → Prop}
    (concludes : ∀ baseDir, Keeps invariant
      (Service.conclude directory baseDir (service.factsBy script)) post Failure.Shows)
    (schedule : Pool.Schedule) (limit : Option Time) :
    Keeps invariant (service.assembleAlong schedule directory limit)
      (fun (kept, record) => post (record, kept.lastErrors)) Failure.Shows := by
  refine (service.gather_keeps (lasting.questioned _) directory concludes schedule limit).bind
    fun (record, gaps) holds => ?_
  have reports : Keeps invariant (gaps.forM (reportGap directory) : Program Time PUnit)
      (fun _ => True) Failure.Shows :=
    .forM (fun _ => .log lasting.stable _ _ _) gaps
  exact reports.bind fun _ _ => .pure holds

/-- **A record that an assembly returns is made of what the script tells**, and so are the gaps that
the service keeps. -/
theorem Service.assembleAlong_keeps (schedule : Pool.Schedule) (limit : Option Time) :
    Keeps invariant (service.assembleAlong schedule directory limit)
      (fun (kept, record) => service.IsToldBy script (record, kept.lastErrors))
      Failure.Shows :=
  service.assembleAlong_keeps_concluded lasting directory
    (service.conclude_keeps_told directory) schedule limit

end Records

end Provenance.Assembly
