import Provenance.Proofs.World.Program

/-!
Contract: what a program keeps, returns and fails with.

Owns:
- `Failure.Shows`, failures that show in an exit code, as faults and problems with version
  control do;
- `Program.Keeps`, with a rule for each way of building a program;
- `World.Stable`, what holds of a world whatever is said in it: that it has a script, and that
  nothing has been called since;
- `World.StableUnder`, the same of what is said in the log under one name;
- `World.Enduring` and `World.Lasting`, what holds however the clock runs on, and whatever a script
  is asked;
- `World.Questioned`, what holds whatever a script is asked by one who logs under one name.

Does **not** own: the programs that laws speak about.

## Why failures have a property too

A failure that is caught is a value to what comes after it.  So what a program fails
with has to be known just as what it returns.
-/

set_option autoImplicit false

namespace Provenance

variable {Time α β : Type}

/-! ## Exit codes -/

namespace Failure

/-- A failure that shows in the exit code of a run that it ends. -/
def Shows (failure : Failure) : Prop :=
  failure.exitCode ≠ 0

theorem shows_fault (fault : Fault) : Shows (.fault fault) := by
  change ((exitCodeOf fault.className : Nat) : Int) ≠ 0
  unfold exitCodeOf
  split <;> decide

theorem shows_gitProblem (kind : GitProblem) (headline detail : Option String) :
    Shows (.problem (.git kind headline detail)) := by
  have positive : kind.exitCode ≠ 0 := by
    cases kind with
    | gap field => exact (by decide : ExitCode.partialSuccess ≠ 0)
    | _ => decide
  exact Int.natCast_ne_zero.mpr positive

theorem shows_git (kind : GitProblem) (detail : String) : Shows (git kind detail) :=
  shows_gitProblem kind none (some detail)

end Failure

/-! ## What holds whatever is said -/

namespace World

/-- What still holds after any event that is no call. -/
def Stable (invariant : World Time → Prop) : Prop :=
  ∀ (current : World Time) (event : Event Time), (∀ call, event ≠ .called call) →
    invariant current → invariant { current with trace := current.trace ++ [event] }

def HasScript (script : Git.Script Time) (current : World Time) : Prop :=
  current.script = script

theorem stable_hasScript (script : Git.Script Time) : Stable (HasScript script) :=
  fun _ _ _ holds => holds

/-- A world has become another one, and nothing has been called. -/
theorem stable_follows (world : World Time) : Stable fun current => world.Follows current [] := by
  intro current event noCall follows
  refine ⟨follows.files, follows.cwd, follows.environment, follows.script, ?_⟩
  have calls_eq : calls [event] = [] := by
    cases event with
    | called call => exact absurd rfl (noCall call)
    | _ => rfl
  rw [calls_append, follows.calls, calls_eq, List.append_nil]

/-- What still holds whatever is said in the log under a name. -/
def StableUnder (logger : String) (invariant : World Time → Prop) : Prop :=
  ∀ (current : World Time) (level : Level) (message : String), invariant current →
    invariant { current with trace := current.trace ++ [.logged ⟨level, logger, message⟩] }

theorem Stable.under {invariant : World Time → Prop} (stable : Stable invariant)
    (logger : String) : StableUnder logger invariant :=
  fun current _ _ => stable current _ fun _ isCall => by cases isCall

/-- What still holds however the clock runs on. -/
def Timed (invariant : World Time → Prop) : Prop :=
  ∀ (current : World Time) (clock : Time),
    invariant current → invariant { current with clock := clock }

/-- What still holds whatever is said and however the clock runs on. -/
structure Enduring (invariant : World Time → Prop) : Prop where
  stable : Stable invariant
  timed : Timed invariant

/-- What holds of a world whatever is asked in it, where all answers are those of one script. -/
structure Lasting (script : Git.Script Time) (invariant : World Time → Prop) : Prop
    extends Enduring invariant where
  called : ∀ (current : World Time) (call : Call Time),
    invariant current → invariant { current with trace := current.trace ++ [.called call] }
  tells : ∀ current : World Time, invariant current → current.script = script

/-- What holds of a world whatever is asked in it by one who logs under a name, where all answers
are those of one script. -/
structure Questioned (script : Git.Script Time) (logger : String) (invariant : World Time → Prop) :
    Prop where
  heard : StableUnder logger invariant
  timed : Timed invariant
  called : ∀ (current : World Time) (call : Call Time),
    invariant current → invariant { current with trace := current.trace ++ [.called call] }
  tells : ∀ current : World Time, invariant current → current.script = script

theorem Lasting.questioned {script : Git.Script Time} {invariant : World Time → Prop}
    (lasting : Lasting script invariant) (logger : String) : Questioned script logger invariant :=
  ⟨lasting.stable.under logger, lasting.timed, lasting.called, lasting.tells⟩

theorem lasting_hasScript (script : Git.Script Time) : Lasting script (HasScript script) where
  stable := stable_hasScript script
  timed := fun _ _ holds => holds
  called := fun _ _ holds => holds
  tells := fun _ holds => holds

end World

/-! ## Rules -/

namespace Program

/-- Where something holds it still holds after a program, what the program returns has one property,
and what it fails with has another. -/
def Keeps (invariant : World Time → Prop) (program : Program Time α) (post : α → Prop)
    (ends : Failure → Prop) : Prop :=
  ∀ current, invariant current →
    invariant (program.runIn current).2 ∧
      (∀ value, (program.runIn current).1 = .ok value → post value) ∧
      ∀ failure, (program.runIn current).1 = .error failure → ends failure

namespace Keeps

variable {invariant : World Time → Prop} {program : Program Time α} {post post' : α → Prop}
  {ends ends' : Failure → Prop} {next : α → Program Time β} {rest : β → Prop}

theorem pure {value : α} (holds : post value) :
    Keeps invariant (Pure.pure value) post ends := by
  intro current kept
  refine ⟨kept, fun found returns => ?_, fun failure fails => by cases fails⟩
  obtain rfl := Except.ok.inj returns
  exact holds

theorem fail {failure : Failure} (holds : ends failure) :
    Keeps invariant (Program.fail failure : Program Time α) post ends := by
  intro current kept
  refine ⟨kept, fun found returns => (by cases returns), fun other fails => ?_⟩
  obtain rfl := Except.error.inj fails
  exact holds

theorem ofResult {result : Except Failure α} (returns : ∀ value, result = .ok value → post value)
    (fails : ∀ failure, result = .error failure → ends failure) :
    Keeps invariant (Program.ofResult result : Program Time α) post ends := by
  cases result with
  | ok value => exact .pure (returns value rfl)
  | error failure => exact .fail (fails failure rfl)

theorem ofFault {result : Except Failure.Fault α} (fails : ∀ fault, ends (.fault fault)) :
    Keeps invariant (Program.ofFault result : Program Time α) (fun _ => True) ends := by
  cases result with
  | ok value => exact .pure trivial
  | error fault => exact .fail (fails fault)

theorem ofRefusal {path : String} {result : Except Failure.FileFault α}
    (fails : ∀ fault, ends (.fault fault)) :
    Keeps invariant (Program.ofRefusal path result : Program Time α) (fun _ => True) ends := by
  cases result with
  | ok value => exact .pure trivial
  | error fault => exact .fail (fails _)

theorem world : Keeps invariant Program.world invariant ends := by
  intro current kept
  refine ⟨kept, fun found returns => ?_, fun failure fails => by cases fails⟩
  obtain rfl := Except.ok.inj returns
  exact kept

theorem change {step : World Time → World Time}
    (keeps : ∀ current, invariant current → invariant (step current)) :
    Keeps invariant (Program.change step) (fun _ => True) ends :=
  fun current kept => ⟨keeps current kept, fun _ _ => trivial, fun _ fails => by cases fails⟩

theorem record (stable : World.Stable invariant) {event : World.Event Time}
    (noCall : ∀ call, event ≠ .called call) :
    Keeps invariant (Program.record event) (fun _ => True) ends :=
  .change fun current => stable current event noCall

theorem logUnder {logger : String} (heard : World.StableUnder logger invariant)
    (level : World.Level) (message : String) :
    Keeps invariant (Program.log level logger message) (fun _ => True) ends :=
  .change fun current => heard current level message

theorem log (stable : World.Stable invariant) (level : World.Level) (logger message : String) :
    Keeps invariant (Program.log level logger message) (fun _ => True) ends :=
  .logUnder (stable.under logger) level message

theorem bind (first : Keeps invariant program post ends)
    (second : ∀ value, post value → Keeps invariant (next value) rest ends) :
    Keeps invariant (program >>= next) rest ends := by
  intro current kept
  obtain ⟨keptNext, returns, fails⟩ := first current kept
  rw [runIn_bind]
  cases runs : program.runIn current with
  | mk result after =>
      rw [runs] at keptNext returns fails
      cases result with
      | ok value => exact second value (returns value rfl) after keptNext
      | error failure =>
          refine ⟨keptNext, fun found returns => (by cases returns), fun other same => ?_⟩
          obtain rfl := Except.error.inj same
          exact fails failure rfl

theorem weaken (keeps : Keeps invariant program post ends)
    (returns : ∀ value, post value → post' value)
    (fails : ∀ failure, ends failure → ends' failure) : Keeps invariant program post' ends' :=
  fun current kept =>
    have ⟨keptNext, holds, severe⟩ := keeps current kept
    ⟨keptNext, fun value same => returns value (holds value same),
      fun failure same => fails failure (severe failure same)⟩

theorem map {change : α → β} (keeps : Keeps invariant program post ends)
    (returns : ∀ value, post value → rest (change value)) :
    Keeps invariant (change <$> program) rest ends := by
  rw [map_eq_pure_bind]
  exact keeps.bind fun value holds => .pure (returns value holds)

/-- What a caught program comes to is known either way. -/
theorem attempt {post : Except Failure α → Prop}
    (keeps : Keeps invariant program (fun value => post (.ok value)) fun failure =>
      post (.error failure)) :
    Keeps invariant (Program.attempt program) post ends := by
  intro current kept
  obtain ⟨keptNext, returns, fails⟩ := keeps current kept
  rw [runIn_attempt]
  refine ⟨keptNext, fun result same => ?_, fun failure fails => by cases fails⟩
  obtain rfl := Except.ok.inj same
  cases comes : (program.runIn current).1 with
  | ok value => exact returns value comes
  | error failure => exact fails failure comes

/-- A program that keeps whatever holds of a world changes nothing, and its result tells its run. -/
theorem runIn_eq {current : World Time} {result : Except Failure α}
    (keeps : Keeps (fun world => world = current) program post ends)
    (comesTo : (program.runIn current).1 = result) : program.runIn current = (result, current) :=
  Prod.ext comesTo (keeps current rfl).1

theorem forM {step : α → Program Time PUnit}
    (each : ∀ value, Keeps invariant (step value) (fun _ => True) ends) (values : List α) :
    Keeps invariant (values.forM step) (fun _ => True) ends := by
  induction values with
  | nil => exact .pure trivial
  | cons value others inductionHypothesis =>
      exact (each value).bind fun _ _ => inductionHypothesis

end Keeps
end Program
end Provenance
