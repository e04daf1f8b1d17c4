import Provenance.Assembly.Service
import Provenance.Proofs.Git.Call

/-!
Contract: the calls of an assembly, one stage each.

Owns:
- `Stage`, the eight calls in their order, with their arguments;
- `Service.call`, the program that every stage runs, and `Query.read` and
  `Stage.refusal?`, which say what its exit means;
- the laws that the questions of an assembly are such calls;
- `Service.call_runIn`, the one law of what the call of a stage comes to.

Does **not** own: the order in which the stages run.
-/

set_option autoImplicit false

namespace Provenance.Assembly

open Failure (Problem Fault GapField)
open World (Timekeeping Call)

/-- The calls of an assembly: two that have to succeed, then one for each fact. -/
inductive Stage where
  | status
  | root
  | fact (query : Query)
  deriving DecidableEq, Repr

namespace Stage

def all : List Stage :=
  .status :: .root :: Query.all.map .fact

/-- The arguments of a stage's call, given the texts of the remote and of the length. -/
def arguments (remote length : String) : Stage → List String
  | .status => Git.Client.Arguments.status
  | .root => Git.Client.Arguments.root
  | .fact .remoteUrl => Git.Client.Arguments.remoteUrl remote
  | .fact .hash => Git.Client.Arguments.hash
  | .fact .shortHash => Git.Client.Arguments.shortHash length
  | .fact .branch => Git.Client.Arguments.branches
  | .fact .tags => Git.Client.Arguments.tags
  | .fact .timestamp => Git.Client.Arguments.timestamp

end Stage

section Questions

variable {Time : Type} [Timekeeping Time] (service : Service Time)

/-- The arguments of a stage's call with the settings of a service. -/
def Service.arguments (stage : Stage) : List String :=
  stage.arguments service.remote.display service.client.shortHashLength.display

/-- The fault of a setting that cannot be written into the arguments of a stage. -/
def Service.unwritten? : Stage → Option Fault
  | .fact .remoteUrl => if service.remote.isTooLong then some .tooLongToWrite else none
  | .fact .shortHash =>
    if service.client.shortHashLength.isTooLong then some .tooLongToWrite else none
  | _ => none

def Service.call (stage : Stage) (directory : String) (deadline : Option Time) :
    Program Time (String × Int) := do
  let left ← remaining deadline
  match service.unwritten? stage with
  | some fault => Program.fail (.fault fault)
  | none => service.client.run (service.arguments stage) directory left

/-- The failure that the exit of a stage's call means; a query never refuses. -/
def Service.refusal? (directory : String) : Stage → String × Int → Option Failure
  | .status, (_, code) =>
    if code ≠ 0 then some (Failure.git .notARepository directory) else none
  | .root, (output, code) =>
    if code ≠ 0 then
      some (Failure.git .noBaseDirectory
        (service.client.exitDetail Git.Client.Arguments.root code))
    else if output.isEmpty then
      some (Failure.git .noBaseDirectory "no output returned for git base dir")
    else none
  | .fact _, _ => none

/-- What the exit of a query's call says about the fact. -/
def Service.read (query : Query) (printed : String × Int) : Except Failure Finding :=
  let arguments := service.arguments (.fact query)
  match query with
  | .remoteUrl =>
    (service.client.readLine arguments .remoteUrl
      ("no remote " ++ service.remote.display ++ " url output") printed).map .line
  | .hash => (service.client.readLine arguments .hash "no hash output" printed).map .line
  | .shortHash =>
    (service.client.readLine arguments .shortHash "no short hash output" printed).map .line
  | .branch => (service.client.readBranches printed).map .list
  | .tags => .ok (.list (Git.Client.readTags printed))
  | .timestamp => .ok (.line (Git.Client.readTimestamp printed))

end Questions

/-! ## The questions are calls that are read -/

private theorem ofFault_shown_bind {Time α : Type} (value : Data.Value)
    (next : String → Program Time α) :
    Program.ofFault value.shown >>= next =
      match (if value.isTooLong then some .tooLongToWrite else none : Option Fault) with
      | some fault => Program.fail (.fault fault)
      | none => next value.display := by
  unfold Data.Value.shown
  by_cases long : value.isTooLong
  · simp only [if_pos long]
    rfl
  · simp only [if_neg long]
    rfl

/-- A question asks by the call of its stage and does nothing more than read the exit. -/
theorem ask_eq {Time : Type} [Timekeeping Time] (service : Service Time) (directory : String)
    (deadline : Option Time) (query : Query) :
    ask service.client service.remote directory deadline query =
      service.call (.fact query) directory deadline >>= fun printed =>
        Program.ofResult (service.read query printed) := by
  unfold ask Service.call
  simp only [bind_assoc]
  refine congrArg (remaining deadline >>= ·) (funext fun left => ?_)
  cases query with
  | remoteUrl =>
      simp only [Git.Client.remoteUrl, Git.Client.askLine, ofFault_shown_bind,
        Service.unwritten?]
      by_cases long : service.remote.isTooLong
      · simp only [if_pos long]
        rfl
      · simp only [if_neg long, map_bind, Program.map_ofResult]
        rfl
  | hash =>
      simp only [Git.Client.commitHash, Git.Client.askLine, map_bind, Program.map_ofResult]
      rfl
  | shortHash =>
      simp only [Git.Client.shortCommitHash, Git.Client.askLine, ofFault_shown_bind,
        Service.unwritten?]
      by_cases long : service.client.shortHashLength.isTooLong
      · simp only [if_pos long]
        rfl
      · simp only [if_neg long, map_bind, Program.map_ofResult]
        rfl
  | branch =>
      simp only [Git.Client.currentBranches, map_bind, Program.map_ofResult]
      rfl
  | tags =>
      simp only [Git.Client.tagsAtHead, map_bind, map_pure]
      rfl
  | timestamp =>
      simp only [Git.Client.commitTimestamp, map_bind, map_pure]
      rfl

/-- Only an exit without an error shows a working tree. -/
def readStatus (directory : String) (printed : String × Int) : Except Failure Unit :=
  if printed.2 ≠ 0 then .error (Failure.git .notARepository directory) else .ok ()

theorem requireRepository_eq {Time : Type} [Timekeeping Time] (service : Service Time)
    (directory : String) (deadline : Option Time) :
    service.requireRepository directory deadline =
      service.call .status directory deadline >>= fun printed =>
        Program.ofResult (readStatus directory printed) := by
  have isRepository_eq (printed : String × Int) :
      (if (printed.2 == 0) = true then pure () else Program.failWith .notARepository directory) =
        (Program.ofResult (readStatus directory printed) : Program Time Unit) := by
    unfold readStatus
    by_cases zero : printed.2 = 0
    · rw [if_pos (by simpa using zero), if_neg (by simpa using zero)]
      rfl
    · rw [if_neg (by simpa using zero), if_pos zero]
      rfl
  unfold Service.requireRepository Service.call Git.Client.isRepository
  simp only [bind_assoc, pure_bind, ← isRepository_eq]
  rfl

theorem rootOf_eq {Time : Type} [Timekeeping Time] (service : Service Time) (directory : String)
    (deadline : Option Time) :
    service.rootOf directory deadline =
      service.call .root directory deadline >>= fun printed =>
        Program.ofResult (service.client.readRoot printed) := by
  unfold Service.rootOf Service.call Git.Client.repositoryRoot
  simp only [bind_assoc]
  rfl

theorem readStatus_eq {Time : Type} (service : Service Time) (directory : String)
    (printed : String × Int) :
    readStatus directory printed =
      match service.refusal? directory .status printed with
      | some failure => .error failure
      | none => .ok () := by
  simp only [readStatus, Service.refusal?]
  by_cases failing : printed.2 ≠ 0
  · rw [if_pos failing, if_pos failing]
  · rw [if_neg failing, if_neg failing]

theorem readRoot_eq {Time : Type} (service : Service Time) (directory : String)
    (printed : String × Int) :
    service.client.readRoot printed =
      match service.refusal? directory .root printed with
      | some failure => .error failure
      | none => .ok (Git.firstLine printed.1) := by
  simp only [Git.Client.readRoot, Service.refusal?]
  by_cases failing : printed.2 ≠ 0
  · rw [if_pos failing, if_pos failing]
  · rw [if_neg failing, if_neg failing]
    by_cases silent : printed.1.isEmpty = true
    · rw [if_pos silent, if_pos silent]
    · rw [if_neg silent, if_neg silent]

/-! ## Which failures are gaps -/

/-- The failure with which an outcome ends an assembly; a fact or a gap does not end it. -/
def Outcome.stop? : Outcome → Option Failure
  | .fatal failure => some failure
  | .unfinished => some (.fault .unfinished)
  | _ => none

def leavesGap : Failure → Bool
  | .problem problem => problem.isGap
  | .fault _ => false

theorem stop?_ofResult_error {failure : Failure} (severe : leavesGap failure = false) :
    (Outcome.ofResult (.error failure)).stop? = some failure := by
  cases failure with
  | problem problem =>
      have notGap : problem.isGap = false := severe
      simp [Outcome.ofResult, Outcome.stop?, notGap]
  | fault fault => cases fault <;> rfl

/-- An exit never ends the assembly: a fact can be read off it, or it leaves a gap. -/
theorem stop?_ofResult_read {Time : Type} (service : Service Time) (query : Query)
    (printed : String × Int) : (Outcome.ofResult (service.read query printed)).stop? = none := by
  have line (field : GapField) (arguments : List String) (silence : String) :
      (Outcome.ofResult
        ((service.client.readLine arguments field silence printed).map .line)).stop? = none := by
    unfold Git.Client.readLine
    split
    · rfl
    · split <;> rfl
  cases query with
  | remoteUrl => exact line _ _ _
  | hash => exact line _ _ _
  | shortHash => exact line _ _ _
  | branch =>
      simp only [Service.read, Git.Client.readBranches]
      split <;> rfl
  | tags => rfl
  | timestamp => rfl

/-- A call that fails leaves no gap. -/
theorem leavesGap_of_reply {client : Git.Client Rat} {world : World Rat}
    {arguments : List String} {directory : String} {limit : Rat} {failure : Failure}
    (fails : client.reply world arguments directory limit = .error failure) :
    leavesGap failure = false := by
  unfold Git.Client.reply at fails
  split at fails
  · next found =>
      obtain rfl := Except.error.inj fails
      unfold Git.Client.failure? at found
      simp only at found
      split at found
      · obtain rfl := Option.some.inj found
        rfl
      · split at found
        · obtain rfl := Option.some.inj found
          rfl
        · obtain ⟨trouble, -, rfl⟩ := Option.map_eq_some_iff.mp found
          cases trouble with
          | missing =>
              by_cases there : world.files.isDirectory world.cwd directory = true
              · rw [Git.Client.troubleFailure, if_pos there]
                rfl
              · rw [Git.Client.troubleFailure, if_neg there]
                rfl
          | _ => rfl
  · cases fails

/-! ## What the call of a stage comes to -/

def isPast (deadline : Option Rat) (clock : Rat) : Bool :=
  deadline.any fun moment => moment ≤ clock

theorem remaining_runIn (deadline : Option Rat) (world : World Rat) :
    (remaining deadline).runIn world =
      (if isPast deadline world.clock then .error deadlineExceeded
        else .ok (deadline.map (· - world.clock)), world) := by
  cases deadline with
  | none => rfl
  | some moment =>
      have isSpent_eq : Timekeeping.isSpent (moment - world.clock) =
          .ok (decide (moment ≤ world.clock)) := by
        simp [Timekeeping.isSpent]
      have sub_eq : Timekeeping.sub moment world.clock = .ok (moment - world.clock) := rfl
      by_cases past : moment ≤ world.clock
      · simp [remaining, Program.runIn_bind, isPast, isSpent_eq, sub_eq, past]
      · simp [remaining, Program.runIn_bind, isPast, isSpent_eq, sub_eq, past]

namespace Service

variable (service : Service Rat) (stage : Stage) (directory : String)

/-- The fault that keeps a stage's call from being made. -/
def fault? : Option Fault :=
  (service.unwritten? stage).or (service.client.fault? (service.arguments stage) directory)

def limitAt (deadline : Option Rat) (clock : Rat) : Rat :=
  service.client.limitWithin (deadline.map (· - clock))

def callAt (deadline : Option Rat) (clock : Rat) : Call Rat :=
  ⟨service.client.command (service.arguments stage), directory, service.limitAt deadline clock,
    clock⟩

/-- How long the call of a stage lasts that starts at some moment. -/
def lastsAt (world : World Rat) (deadline : Option Rat) (clock : Rat) : Rat :=
  (world.script.answer (service.arguments stage)).lasts (service.limitAt deadline clock)

/-- The failure that the call of a stage comes to within a limit: one of the call itself, or one
that its exit means. -/
def failure? (world : World Rat) (limit : Rat) : Option Failure :=
  (service.client.failure? world (service.arguments stage) directory limit).or
    (service.refusal? directory stage (Git.Client.printed world (service.arguments stage)))

/-- A call that fails at a stage has failed itself, or its exit means so. -/
theorem failure?_of_reply {world : World Rat} {limit : Rat} :
    service.failure? stage directory world limit =
      match service.client.reply world (service.arguments stage) directory limit with
      | .error failure => some failure
      | .ok printed => service.refusal? directory stage printed := by
  unfold failure? Git.Client.reply
  cases service.client.failure? world (service.arguments stage) directory limit <;> rfl

theorem call_runIn_of_isPast {deadline : Option Rat} {world : World Rat}
    (past : isPast deadline world.clock = true) :
    (service.call stage directory deadline).runIn world = (.error deadlineExceeded, world) := by
  unfold call
  rw [Program.runIn_bind, remaining_runIn, if_pos past]

theorem call_runIn_of_fault {deadline : Option Rat} {world : World Rat} {fault : Fault}
    (notPast : isPast deadline world.clock = false)
    (unspoken : service.fault? stage directory = some fault) :
    ∃ after,
      (service.call stage directory deadline).runIn world = (.error (.fault fault), after) ∧
        world.Follows after [] ∧ after.clock = world.clock := by
  unfold call
  rw [Program.runIn_bind, remaining_runIn, notPast]
  unfold fault? at unspoken
  cases unwritten : service.unwritten? stage with
  | some other =>
      rw [unwritten] at unspoken
      obtain rfl := Option.some.inj unspoken
      exact ⟨world, rfl, .refl world, rfl⟩
  | none =>
      rw [unwritten, Option.none_or] at unspoken
      exact service.client.run_runIn_of_fault _ _ _ _ unspoken

/-- **The call of a stage.**  Before the deadline a call that nothing keeps from being made is made,
and it comes to what its answer says. -/
theorem call_runIn {deadline : Option Rat} {world : World Rat}
    (notPast : isPast deadline world.clock = false)
    (spoken : service.fault? stage directory = none) :
    ∃ after,
      (service.call stage directory deadline).runIn world =
          (service.client.reply world (service.arguments stage) directory
            (service.limitAt deadline world.clock), after) ∧
        world.Follows after [service.callAt stage directory deadline world.clock] ∧
        after.clock = world.clock + service.lastsAt stage world deadline world.clock := by
  obtain ⟨unwritten, passable⟩ := Option.or_eq_none_iff.mp spoken
  obtain ⟨after, runs, follows, clock⟩ := service.client.run_runIn (service.arguments stage)
    directory world passable (deadline.map (· - world.clock))
  refine ⟨after, ?_, follows, clock⟩
  unfold call
  rw [Program.runIn_bind, remaining_runIn, notPast, unwritten]
  exact runs

/-- Whatever keeps the call of a stage from being answered leaves no gap. -/
theorem leavesGap_of_call {deadline : Option Rat} {world after : World Rat} {failure : Failure}
    (fails : (service.call stage directory deadline).runIn world = (.error failure, after)) :
    leavesGap failure = false := by
  cases past : isPast deadline world.clock with
  | true =>
      rw [call_runIn_of_isPast service stage directory past] at fails
      obtain ⟨rfl, -⟩ := fails
      rfl
  | false =>
      cases spoken : service.fault? stage directory with
      | some fault =>
          obtain ⟨reached, calls, -⟩ := call_runIn_of_fault service stage directory past spoken
          rw [calls] at fails
          obtain ⟨rfl, -⟩ := fails
          rfl
      | none =>
          obtain ⟨reached, calls, -⟩ := call_runIn service stage directory past spoken
          rw [calls, Prod.mk.injEq] at fails
          exact leavesGap_of_reply fails.1

end Service
end Provenance.Assembly
