import Mathlib.Data.Rat.Defs
import Mathlib.Algebra.Order.Ring.Rat
import Provenance.Git.Client
import Provenance.Proofs.World.Program

/-!
Contract: what one call of the version control program comes to.

Owns:
- `Client.limitWithin`, `Answer.lasts` and `Client.failure?`, which say by the
  answer alone how long a call is allowed, how long it takes and how it fails;
- `Client.run_runIn`, the law that a call comes to just that.

Does **not** own: what an exit code means to the one who asked.

## Why time is exact here

A clock of rational numbers adds and compares without faults.  So the only ways in
which a call fails before it is made are that it cannot be put into words and that
the system cannot be given its words.
-/

set_option autoImplicit false

namespace Provenance.Git

open Data (Value)
open Failure (Fault)
open World (Timekeeping Call)

/-- How long a call takes: it is cut off at its limit. -/
def Answer.lasts (answer : Answer Rat) (limit : Rat) : Rat :=
  min answer.takes limit

namespace Client

/-- The limit of a call: the client's own, or what is left of a deadline where that is tighter. -/
def limitWithin (client : Client Rat) (left : Option Rat) : Rat :=
  match left with
  | none => client.timeout
  | some left => min client.timeout left

/-- The fault of a program's name that is no text, which keeps every call from being made. -/
def unnamed? (client : Client Rat) : Option Fault :=
  match client.binary with
  | .scalar (.text _) => none
  | other => some (.notJoinable 0 other.kind)

/-- The fault that keeps a call from being made: the program has no name, or a text of the call
cannot be given to the system. -/
def fault? (client : Client Rat) (arguments : List String) (directory : String) : Option Fault :=
  client.unnamed?.or (if client.holdsNull arguments directory then some .nullCharacter else none)

def line (client : Client Rat) (arguments : List String) : String :=
  " ".intercalate (client.command arguments)

/-- The failure that something gone wrong with a call amounts to.  A missing program is told from a
missing directory by looking at the directory. -/
def troubleFailure (client : Client Rat) (world : World Rat) (arguments : List String)
    (directory : String) : Trouble → Failure
  | .timeout => Failure.git .timeout (client.line arguments)
  | .missing =>
    if world.files.isDirectory world.cwd directory then
      Failure.git .noBinary client.binary.display
    else
      Failure.git .notARepository (directory ++ " does not exist")
  | .notADirectory => Failure.git .notARepository (directory ++ " is not a directory")
  | .denied => .fault (.file .denied client.binary.display)
  | .interrupt => .fault .interrupted

/-- The failure that a call comes to within a limit; none where the program exits in time. -/
def failure? (client : Client Rat) (world : World Rat) (arguments : List String)
    (directory : String) (limit : Rat) : Option Failure :=
  let answer := world.script.answer arguments
  if limit < answer.takes then some (Failure.git .timeout (client.line arguments))
  else if answer.hangs then some (.fault .unfinished)
  else answer.trouble.map (client.troubleFailure world arguments directory)

def printed (world : World Rat) (arguments : List String) : String × Int :=
  (outputText (world.script.answer arguments).output, (world.script.answer arguments).code)

/-- What a call comes to: a failure, or what is printed with the exit code. -/
def reply (client : Client Rat) (world : World Rat) (arguments : List String)
    (directory : String) (limit : Rat) : Except Failure (String × Int) :=
  match client.failure? world arguments directory limit with
  | some failure => .error failure
  | none => .ok (printed world arguments)

variable (client : Client Rat) (arguments : List String) (directory : String)
  (world : World Rat)

theorem limit_eq (left : Option Rat) : client.limit left = .ok (client.limitWithin left) := by
  cases left with
  | none => rfl
  | some left =>
      by_cases longer : client.timeout < left
      · simp [limit, limitWithin, Timekeeping.isAbsent, Timekeeping.exceeds, longer,
          min_eq_left longer.le]
      · simp [limit, limitWithin, Timekeeping.isAbsent, Timekeeping.exceeds, longer,
          min_eq_right (not_lt.mp longer)]

theorem commandLine_eq :
    client.commandLine arguments =
      match client.unnamed? with
      | some fault => .error fault
      | none => .ok (client.line arguments) := by
  unfold commandLine unnamed? line command
  split
  · next name named => simp [named, Value.display, Data.Scalar.display]
  · next other => split <;> simp_all

theorem advance_runIn (span : Rat) :
    (advance span).runIn world = (.ok (), { world with clock := world.clock + span }) := rfl

def settled (answer : Answer Rat) : Except Failure Outcome :=
  if answer.hangs then .error (.fault .unfinished)
  else
    match answer.trouble with
    | some .timeout => .ok .expired
    | some .missing => .ok .missing
    | some .notADirectory => .ok .notADirectory
    | some .denied => .error (.fault (.file .denied client.binary.display))
    | some .interrupt => .error (.fault .interrupted)
    | none => .ok (.exited (outputText answer.output) answer.errors answer.code)

theorem settle_runIn (answer : Answer Rat) :
    (client.settle answer).runIn world = (client.settled answer, world) := by
  unfold settle settled
  by_cases hangs : answer.hangs
  · rw [if_pos hangs, if_pos hangs, Program.runIn_fail]
  · rw [if_neg hangs, if_neg hangs]
    cases answer.trouble with
    | none => rfl
    | some trouble => cases trouble <;> rfl

/-- What a call comes to before it is reported: it is cut off at its limit, or it is answered. -/
def outcome (answer : Answer Rat) (limit : Rat) : Except Failure Outcome :=
  if limit < answer.takes then .ok .expired else client.settled answer

/-- A call is recorded with the moment it starts, and lasts as long as its answer says. -/
theorem call_runIn (passable : client.holdsNull arguments directory = false) (limit : Rat) :
    (client.call arguments directory limit).runIn world =
      (client.outcome (world.script.answer arguments) limit,
        { world with
          clock := world.clock + (world.script.answer arguments).lasts limit
          trace := world.trace ++
            [.called ⟨client.command arguments, directory, limit, world.clock⟩] }) := by
  have isCutOff_eq (answer : Answer Rat) :
      isCutOff answer limit = .ok (decide (limit < answer.takes)) := rfl
  unfold call outcome Answer.lasts
  rw [passable]
  by_cases late : limit < (world.script.answer arguments).takes
  · simp [Program.runIn_bind, Program.runIn_map, isCutOff_eq, advance_runIn, late,
      min_eq_right late.le, Except.map]
  · simp [Program.runIn_bind, isCutOff_eq, advance_runIn, settle_runIn, late,
      min_eq_left (not_lt.mp late)]

theorem call_runIn_of_holdsNull (holds : client.holdsNull arguments directory = true)
    (limit : Rat) :
    (client.call arguments directory limit).runIn world =
      (.error (.fault .nullCharacter), world) := by
  unfold call
  rw [if_pos holds, Program.runIn_fail]

/-- A call that cannot be made is at most announced in the log. -/
theorem run_runIn_of_fault {fault : Fault} (left : Option Rat)
    (unspoken : client.fault? arguments directory = some fault) :
    ∃ after,
      (client.run arguments directory left).runIn world = (.error (.fault fault), after) ∧
        world.Follows after [] ∧ after.clock = world.clock := by
  unfold fault? at unspoken
  unfold run
  cases named : client.unnamed? with
  | some other =>
      rw [named] at unspoken
      obtain rfl := Option.some.inj unspoken
      exact ⟨world, by simp [Program.runIn_bind, limit_eq, commandLine_eq, named], .refl world, rfl⟩
  | none =>
      rw [named, Option.none_or] at unspoken
      by_cases holds : client.holdsNull arguments directory = true
      · rw [if_pos holds] at unspoken
        obtain rfl := Option.some.inj unspoken
        refine ⟨_, ?_, .logged world ⟨World.Level.debug, loggerName,
          "Running " ++ client.line arguments ++ " in " ++ directory⟩, rfl⟩
        simp only [Program.runIn_bind, limit_eq, commandLine_eq, named, Program.runIn_ofFault_ok,
          Program.runIn_log, call_runIn_of_holdsNull client arguments directory _ holds]
      · rw [if_neg holds] at unspoken
        cases unspoken

def reported (arguments : List String) (directory : String) :
    Outcome → Except Failure (String × Int)
  | .expired => .error (client.troubleFailure world arguments directory .timeout)
  | .missing => .error (client.troubleFailure world arguments directory .missing)
  | .notADirectory => .error (client.troubleFailure world arguments directory .notADirectory)
  | .exited output _ code => .ok (output, code)

theorem report_runIn (limit : Rat) (outcome : Outcome) :
    ∃ after,
      (client.report (client.line arguments) directory limit outcome).runIn world =
          (client.reported world arguments directory outcome, after) ∧
        world.Follows after [] ∧ after.clock = world.clock := by
  cases outcome with
  | expired => exact ⟨_, rfl, .logged world _, rfl⟩
  | missing =>
      refine ⟨world, ?_, .refl world, rfl⟩
      by_cases there : world.files.isDirectory world.cwd directory
      · simp [report, reported, troubleFailure, Program.runIn_bind, there]
      · simp [report, reported, troubleFailure, Program.runIn_bind, there]
  | notADirectory => exact ⟨world, rfl, .refl world, rfl⟩
  | exited output errors code =>
      simp only [report, reported]
      split
      · exact ⟨_, rfl, .logged world _, rfl⟩
      · exact ⟨world, rfl, .refl world, rfl⟩

theorem reply_eq (limit : Rat) :
    client.reply world arguments directory limit =
      (client.outcome (world.script.answer arguments) limit).bind
        (client.reported world arguments directory) := by
  unfold reply failure? outcome settled
  by_cases late : limit < (world.script.answer arguments).takes
  · simp only [if_pos late]
    rfl
  · by_cases hangs : (world.script.answer arguments).hangs
    · simp only [if_neg late, if_pos hangs]
      rfl
    · simp only [if_neg late, if_neg hangs]
      cases (world.script.answer arguments).trouble with
      | none => rfl
      | some trouble => cases trouble <;> rfl

/-- **A call comes to what its answer says.**  It is made at once, within its limit, and the clock
has run on by as long as it lasts. -/
theorem run_runIn (spoken : client.fault? arguments directory = none) (left : Option Rat) :
    ∃ after,
      (client.run arguments directory left).runIn world =
          (client.reply world arguments directory (client.limitWithin left), after) ∧
        world.Follows after
          [⟨client.command arguments, directory, client.limitWithin left, world.clock⟩] ∧
        after.clock = world.clock +
          (world.script.answer arguments).lasts (client.limitWithin left) := by
  obtain ⟨named, passable⟩ := Option.or_eq_none_iff.mp spoken
  have passable : client.holdsNull arguments directory = false := by
    cases holds : client.holdsNull arguments directory with
    | false => rfl
    | true => rw [holds] at passable; cases passable
  unfold run
  rw [reply_eq]
  simp only [Program.runIn_bind, limit_eq, commandLine_eq, named, Program.runIn_ofFault_ok,
    Program.runIn_log, call_runIn client arguments directory _ passable]
  generalize client.limitWithin left = limit
  have called := ((World.Follows.logged world
    ⟨World.Level.debug, loggerName, "Running " ++ client.line arguments ++ " in " ++ directory⟩).trans
      (.called _ ⟨client.command arguments, directory, limit, world.clock⟩)).trans
        (.withClock _ (world.clock + (world.script.answer arguments).lasts limit))
  cases client.outcome (world.script.answer arguments) limit with
  | error failure => exact ⟨_, rfl, called, rfl⟩
  | ok outcome =>
      obtain ⟨after, reports, follows, clock⟩ :=
        report_runIn client arguments directory _ limit outcome
      exact ⟨after, reports, called.trans follows, clock⟩

theorem eq_printed_of_reply {limit : Rat} {output : String × Int}
    (replies : client.reply world arguments directory limit = .ok output) :
    output = printed world arguments := by
  unfold reply at replies
  split at replies
  · cases replies
  · exact (Except.ok.inj replies).symm

/-- What changes while calls are made does not matter to what a call comes to. -/
theorem reply_of_follows {current : World Rat} {made : List (Call Rat)}
    (follows : world.Follows current made) (limit : Rat) :
    client.reply current arguments directory limit =
      client.reply world arguments directory limit := by
  have troubleFailure_eq : client.troubleFailure current arguments directory =
      client.troubleFailure world arguments directory := by
    funext trouble
    cases trouble with
    | missing => simp only [troubleFailure, follows.files, follows.cwd]
    | _ => rfl
  unfold reply failure? printed
  rw [follows.script, troubleFailure_eq]

end Client
end Provenance.Git
