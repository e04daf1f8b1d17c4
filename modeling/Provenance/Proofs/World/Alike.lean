import Provenance.Proofs.World.Invariant

/-!
Contract: two programs that run alike in two worlds.

Owns:
- `Failure.IsListed`, failures whose exit codes are listed;
- `Program.Agree`, two results of which both succeed or neither does;
- `Program.Alike`, with a rule for each way of building a program;
- `World.Even` and `World.Steady`, what two worlds have to share for programs that look around and
  call nothing;
- `World.Silent`, one world twice, with what stands on its standard output.

Does **not** own: which programs run alike.

## Why one law serves many ends

What is to be kept apart is a relation of its own each time: the words that stand on
standard output, or what the version control program answers.  Programs that run alike
for every relation of a kind are followed once, and each end is met by one choice of the
relation.  A relation of one world with itself says what a single run keeps.

## Why failures are the same

Two failures that differed could not both be reported in the same words.  So related
runs fail with the same failure, and it is always one whose exit code is listed, which
is what a report of it needs.
-/

set_option autoImplicit false

namespace Provenance

variable {Time α α' β β' : Type}

/-! ## Failures with listed exit codes -/

namespace Failure

/-- A failure whose exit code is one of those that are listed: only a problem with a code of its own
has another one. -/
def IsListed : Failure → Prop
  | .problem (.plain ..) => False
  | _ => True

theorem isListed_fault (fault : Fault) : IsListed (.fault fault) := trivial

theorem isListed_git (kind : GitProblem) (detail : String) : IsListed (git kind detail) := trivial

end Failure

/-! ## Results that agree -/

namespace Program

/-- Both results succeed with related values, or both are one failure, whose exit code is listed. -/
inductive Agree (same : α → β → Prop) : Except Failure α → Except Failure β → Prop where
  | ok {left : α} {right : β} (related : same left right) : Agree same (.ok left) (.ok right)
  | error {failure : Failure} (listed : failure.IsListed) :
      Agree same (.error failure) (.error failure)

namespace Agree

variable {same : α → β → Prop} {left : Except Failure α} {right : Except Failure β}

theorem eq {left right : Except Failure α} (agree : Agree Eq left right) : left = right := by
  cases agree with
  | ok related => rw [related]
  | error => rfl

theorem listed {failure : Failure} (agree : Agree same (.error failure) right) :
    failure.IsListed := by
  cases agree with
  | error listed => exact listed

/-- A result agrees with itself, if what it fails with is listed. -/
theorem refl {same : α → α → Prop} {result : Except Failure α} (holds : ∀ value, same value value)
    (listed : ∀ failure, result = .error failure → failure.IsListed) : Agree same result result := by
  cases result with
  | ok value => exact .ok (holds value)
  | error failure => exact .error (listed failure rfl)

theorem weaken {same' : α → β → Prop} (agree : Agree same left right)
    (weaker : ∀ left right, same left right → same' left right) : Agree same' left right := by
  cases agree with
  | ok related => exact .ok (weaker _ _ related)
  | error listed => exact .error listed

end Agree
end Program

/-! ## Worlds that share what is seen -/

namespace World

/-- What is said is neither data nor a call. -/
def Event.IsSaid : Event Time → Prop
  | .called _ => False
  | .printed _ => False
  | _ => True

/-- The world after something has happened in it. -/
def after (event : Event Time) (world : World Time) : World Time :=
  { world with trace := world.trace ++ [event] }

/-- Related worlds look the same to whoever asks neither version control nor a variable, and stay
related when the same is said in both. -/
structure Even (related : World Time → World Time → Prop) : Prop where
  files : ∀ {left right}, related left right → left.files = right.files
  cwd : ∀ {left right}, related left right → left.cwd = right.cwd
  isTerminal : ∀ {left right}, related left right → left.isTerminal = right.isTerminal
  said : ∀ {left right} (event : Event Time), event.IsSaid → related left right →
    related (left.after event) (right.after event)

/-- Related worlds look the same to whoever does not ask version control. -/
structure Steady (related : World Time → World Time → Prop) : Prop extends Even related where
  environment : ∀ {left right}, related left right → left.environment = right.environment

/-- One world twice, on whose standard output a text stands. -/
def Silent (text : String) (left right : World Time) : Prop :=
  left = right ∧ output right.trace = text

theorem output_append (first second : List (Event Time)) :
    output (first ++ second) = output first ++ output second := by
  simp [output, String.join_append]

theorem output_of_isSaid {event : Event Time} (isSaid : event.IsSaid) : output [event] = "" := by
  cases event with
  | called call => cases isSaid
  | printed text => cases isSaid
  | _ => rfl

theorem steady_silent (text : String) : Steady (Silent text : World Time → World Time → Prop) where
  files := fun ⟨same, _⟩ => by rw [same]
  cwd := fun ⟨same, _⟩ => by rw [same]
  environment := fun ⟨same, _⟩ => by rw [same]
  isTerminal := fun ⟨same, _⟩ => by rw [same]
  said := fun event isSaid ⟨same, silent⟩ =>
    ⟨by rw [same], by rw [after, output_append, silent, output_of_isSaid isSaid, String.append_empty]⟩

end World

/-! ## Rules -/

namespace Program

/-- Run in related worlds, both programs end in related worlds, and their results agree. -/
def Alike (related : World Time → World Time → Prop) (same : α → β → Prop)
    (first : Program Time α) (second : Program Time β) : Prop :=
  ∀ left right, related left right →
    related (first.runIn left).2 (second.runIn right).2 ∧
      Agree same (first.runIn left).1 (second.runIn right).1

namespace Alike

variable {related : World Time → World Time → Prop} {same : α → β → Prop}
  {first : Program Time α} {second : Program Time β}

theorem pure {left : α} {right : β} (holds : same left right) :
    Alike related same (Pure.pure left) (Pure.pure right) :=
  fun _ _ kept => ⟨kept, .ok holds⟩

theorem fail {failure : Failure} (listed : failure.IsListed) :
    Alike related same (Program.fail failure) (Program.fail failure) :=
  fun _ _ kept => ⟨kept, .error listed⟩

theorem ofResult {left : Except Failure α} {right : Except Failure β}
    (agree : Agree same left right) :
    Alike related same (Program.ofResult left) (Program.ofResult right) := by
  intro before other kept
  rw [runIn_ofResult, runIn_ofResult]
  exact ⟨kept, agree⟩

theorem ofFault (result : Except Failure.Fault α) :
    Alike related Eq (Program.ofFault result) (Program.ofFault result) := by
  cases result with
  | ok value => exact .pure rfl
  | error fault => exact .fail (Failure.isListed_fault fault)

theorem ofRefusal (path : String) (result : Except Failure.FileFault α) :
    Alike related Eq (Program.ofRefusal path result) (Program.ofRefusal path result) := by
  cases result with
  | ok value => exact .pure rfl
  | error fault => exact .fail (Failure.isListed_fault _)

theorem world : Alike related related Program.world Program.world :=
  fun _ _ kept => ⟨kept, .ok kept⟩

theorem change {step : World Time → World Time}
    (keeps : ∀ left right, related left right → related (step left) (step right)) :
    Alike related Eq (Program.change step) (Program.change step) :=
  fun left right kept => ⟨keeps left right kept, .ok rfl⟩

theorem record {event : World.Event Time}
    (keeps : ∀ left right, related left right →
      related (left.after event) (right.after event)) :
    Alike related Eq (Program.record event) (Program.record event) :=
  .change keeps

theorem log (even : World.Even related) (level : World.Level) (logger message : String) :
    Alike related Eq (Program.log level logger message) (Program.log level logger message) :=
  .record fun _ _ => even.said (.logged ⟨level, logger, message⟩) trivial

theorem reportLine (even : World.Even related) (text : String) :
    Alike related Eq (Program.reportLine text) (Program.reportLine text) :=
  .record fun _ _ => even.said (.reported (text ++ "\n")) trivial

theorem bind {same' : α' → β' → Prop} {next : α → Program Time α'} {other : β → Program Time β'}
    (alike : Alike related same first second)
    (rest : ∀ left right, same left right → Alike related same' (next left) (other right)) :
    Alike related same' (first >>= next) (second >>= other) := by
  intro left right kept
  have ⟨keptNext, agree⟩ := alike left right kept
  rw [runIn_bind, runIn_bind]
  cases runs : first.runIn left with
  | mk result after =>
      cases runsOther : second.runIn right with
      | mk otherResult otherAfter =>
          rw [runs, runsOther] at keptNext agree
          cases agree with
          | ok holds => exact rest _ _ holds _ _ keptNext
          | error listed => exact ⟨keptNext, .error listed⟩

/-- Two programs whose first parts return the same go on from one value. -/
theorem bindSame {same' : α' → β' → Prop} {first second : Program Time α}
    {next : α → Program Time α'} {other : α → Program Time β'}
    (alike : Alike related Eq first second)
    (rest : ∀ value, Alike related same' (next value) (other value)) :
    Alike related same' (first >>= next) (second >>= other) :=
  alike.bind fun left _ holds => holds ▸ rest left

/-- Two programs that look at their worlds go on from worlds that look the same. -/
theorem look {same : α → β → Prop} {next : World Time → Program Time α}
    {other : World Time → Program Time β}
    (rest : ∀ left right, related left right → Alike related same (next left) (other right)) :
    Alike related same (Program.world >>= next) (Program.world >>= other) :=
  world.bind rest

theorem weaken {same' : α → β → Prop} (alike : Alike related same first second)
    (weaker : ∀ left right, same left right → same' left right) :
    Alike related same' first second :=
  fun left right kept =>
    have ⟨keptNext, agree⟩ := alike left right kept
    ⟨keptNext, agree.weaken weaker⟩

/-- What each program returns by itself holds of the two results together. -/
theorem keeping {invariant other : World Time → Prop} {post : α → Prop} {otherPost : β → Prop}
    {severe otherSevere : Failure → Prop} (alike : Alike related same first second)
    (keeps : Keeps invariant first post severe)
    (otherKeeps : Keeps other second otherPost otherSevere)
    (holds : ∀ {left right}, related left right → invariant left ∧ other right) :
    Alike related (fun left right => same left right ∧ post left ∧ otherPost right) first second := by
  intro left right kept
  obtain ⟨keptNext, agree⟩ := alike left right kept
  obtain ⟨-, returns, -⟩ := keeps left (holds kept).1
  obtain ⟨-, otherReturns, -⟩ := otherKeeps right (holds kept).2
  refine ⟨keptNext, ?_⟩
  generalize (first.runIn left).1 = result, (second.runIn right).1 = otherResult at *
  cases agree with
  | ok related => exact .ok ⟨related, returns _ rfl, otherReturns _ rfl⟩
  | error listed => exact .error listed

/-- A caught program comes to a result, whichever it is. -/
theorem attempt (alike : Alike related same first second) :
    Alike related (Agree same) (Program.attempt first) (Program.attempt second) :=
  fun left right kept =>
    have ⟨keptNext, agree⟩ := alike left right kept
    ⟨keptNext, .ok agree⟩

theorem forM {step other : α → Program Time PUnit}
    (each : ∀ value, Alike related Eq (step value) (other value)) (values : List α) :
    Alike related Eq (values.forM step) (values.forM other) := by
  induction values with
  | nil => exact .pure rfl
  | cons value others inductionHypothesis =>
      exact (each value).bindSame fun _ => inductionHypothesis

end Alike

/-- A program that runs like itself in one world prints nothing, and what it fails with is listed. -/
theorem Alike.silent {program : Program Time α} {same : α → α → Prop} (world : World Time)
    (alike : Alike (World.Silent (World.output world.trace)) same program program) :
    World.output (program.runIn world).2.trace = World.output world.trace ∧
      Agree same (program.runIn world).1 (program.runIn world).1 :=
  have ⟨⟨_, silent⟩, agree⟩ := alike world world ⟨rfl, rfl⟩
  ⟨silent, agree⟩

end Program
end Provenance
