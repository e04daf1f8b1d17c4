import Provenance.Proofs.Assembly.Stage
import Provenance.Proofs.World.Alike

/-!
Contract: the calls of an assembly in two worlds whose remotes lead to the same place.

Owns:
- `Remote.SamePlace`, remote URLs with one location;
- `Stage.PrintsAlike`, what two calls of a stage may print: the same, or URLs with one location;
- `InStep` and `Attuned`, worlds that answer every stage alike;
- `Service.call_alike`, `Service.read_alike` and `ask_alike`: calls, what is read off them, and the
  questions that are made of both.

Does **not** own: what an assembly makes of the facts.

## Why only the first line counts

A remote URL is read off the first line that is printed, and only once the exit code is
zero and something is printed.  So two answers to that question may differ in anything
that keeps the code, the presence of a text and the location of its first line.
-/

set_option autoImplicit false

namespace Provenance

/-! ## Remotes of one place -/

/-- Remote URLs that are the same, or that have one location, which is none of nothing. -/
def Remote.SamePlace (left right : String) : Prop :=
  left = right ∨ (Remote.canonical left = Remote.canonical right ∧ Remote.canonical left ≠ "")

namespace Remote.SamePlace

variable {left right : String}

theorem refl (url : String) : Remote.SamePlace url url := .inl rfl

theorem ne_empty_of_canonical {url : String} (located : Remote.canonical url ≠ "") : url ≠ "" := by
  rintro rfl
  exact located rfl

theorem isEmpty_eq (same : Remote.SamePlace left right) : left.isEmpty = right.isEmpty := by
  rcases same with rfl | ⟨one, located⟩
  · rfl
  · have first : left.isEmpty = false := by simpa using ne_empty_of_canonical located
    have second : right.isEmpty = false := by
      simpa using ne_empty_of_canonical (one ▸ located)
    rw [first, second]

end Remote.SamePlace

namespace Assembly

open World (Timekeeping)
open Program (Agree Alike)

variable {Time : Type}

/-! ## Answers to a stage -/

/-- What two calls of a stage may print, with their exit codes: the same, save that remote URLs need
only lead to the same place. -/
def Stage.PrintsAlike (stage : Stage) (left right : String × Int) : Prop :=
  left = right ∨
    (stage = .fact .remoteUrl ∧ left.2 = right.2 ∧
      Text.isBlankText left.1 = Text.isBlankText right.1 ∧
      Remote.SamePlace (Git.firstLine left.1) (Git.firstLine right.1))

/-- Only the question for the remote tells such worlds apart. -/
theorem Stage.eq_of_printsAlike {stage : Stage} (other : stage ≠ .fact .remoteUrl)
    {left right : String × Int} (prints : stage.PrintsAlike left right) : left = right :=
  prints.resolve_right fun ⟨asksRemote, _⟩ => other asksRemote

/-- Two answers to a stage: the same but for what is printed, and that is alike. -/
structure Stage.AnswersAlike (stage : Stage) (left right : Git.Answer Time) : Prop where
  same : { left with output := right.output } = right
  prints : stage.PrintsAlike (Git.outputText left.output, left.code)
    (Git.outputText right.output, right.code)

theorem Stage.AnswersAlike.refl (stage : Stage) (answer : Git.Answer Time) :
    stage.AnswersAlike answer answer where
  same := rfl
  prints := .inl rfl

/-- What two calls of a stage may come to. -/
inductive Stage.CallsAlike (stage : Stage) : Git.Outcome → Git.Outcome → Prop where
  | exited {left right errors : String} {code : Int}
      (prints : stage.PrintsAlike (left, code) (right, code)) :
      CallsAlike stage (.exited left errors code) (.exited right errors code)
  | same (outcome : Git.Outcome) : CallsAlike stage outcome outcome

/-- Related worlds show the same time, stay related when the same is done in both, and answer the
questions of an assembly alike. -/
structure InStep (related : World Time → World Time → Prop) : Prop
    extends World.Even related where
  /-- The program is sought in the same directories. -/
  searchPath : ∀ {left right}, related left right →
    left.environment.get? "PATH" = right.environment.get? "PATH"
  clock : ∀ {left right}, related left right → left.clock = right.clock
  timed : ∀ {left right} (clock : Time), related left right →
    related { left with clock := clock } { right with clock := clock }
  called : ∀ {left right} (call : World.Call Time), related left right →
    related (left.after (.called call)) (right.after (.called call))
  answers : ∀ {left right} (stage : Stage) (remote length : String), related left right →
    stage.AnswersAlike (left.script.answer (stage.arguments remote length))
      (right.script.answer (stage.arguments remote length))

/-- Related worlds have the same variables too. -/
structure Attuned (related : World Time → World Time → Prop) : Prop
    extends World.Steady related, InStep related where
  searchPath := fun kept => by rw [environment kept]

/-- A world is attuned to itself, whatever stands on its standard output. -/
theorem attuned_silent (text : String) :
    Attuned (World.Silent text : World Time → World Time → Prop) where
  toSteady := World.steady_silent text
  clock := fun ⟨same, _⟩ => by rw [same]
  timed := fun _ ⟨same, silent⟩ => ⟨by rw [same], silent⟩
  called := fun call ⟨same, silent⟩ => by
    refine ⟨by rw [same], ?_⟩
    rw [World.after, World.output_append, silent]
    exact String.append_empty
  answers := fun stage _ _ ⟨same, _⟩ => by
    rw [same]
    exact .refl stage _

/-! ## One call -/

section Calling

variable [Timekeeping Time] {related : World Time → World Time → Prop}
  (inStep : InStep related) (client : Git.Client Time)

include inStep

theorem advance_alike (span : Time) :
    Alike related Eq (Git.Client.advance span) (Git.Client.advance span) := by
  refine .look fun left right kept => ?_
  rw [inStep.clock kept]
  exact (Alike.ofFault _).bindSame fun clock =>
    .change fun left right kept => inStep.timed clock kept

omit [Timekeeping Time] inStep in
theorem settle_alike {stage : Stage} {left right : Git.Answer Time}
    (alike : stage.AnswersAlike left right) :
    Alike related stage.CallsAlike (client.settle left) (client.settle right) := by
  obtain ⟨same, prints⟩ := alike
  unfold Git.Client.settle
  rw [← same] at prints ⊢
  dsimp only at prints ⊢
  split
  · exact .fail (Failure.isListed_fault _)
  · split
    · exact .pure (.same _)
    · exact .pure (.same _)
    · exact .pure (.same _)
    · exact .fail (Failure.isListed_fault _)
    · exact .fail (Failure.isListed_fault _)
    · exact .pure (.exited prints)

variable (stage : Stage) (remote length directory : String)

theorem call_alike (limit : Time) :
    Alike related stage.CallsAlike
      (client.call (stage.arguments remote length) directory limit)
      (client.call (stage.arguments remote length) directory limit) := by
  unfold Git.Client.call
  split
  · exact .fail (Failure.isListed_fault _)
  refine .look fun left right kept => ?_
  have alike := inStep.answers stage remote length kept
  have takes_eq : (left.script.answer (stage.arguments remote length)).takes =
      (right.script.answer (stage.arguments remote length)).takes := by
    rw [← alike.same]
  have isCutOff_eq : Git.Client.isCutOff (left.script.answer (stage.arguments remote length)) limit =
      Git.Client.isCutOff (right.script.answer (stage.arguments remote length)) limit := by
    unfold Git.Client.isCutOff
    rw [takes_eq]
  rw [inStep.clock kept]
  refine Alike.bindSame (.record fun _ _ => inStep.called _) fun _ => ?_
  dsimp only
  rw [isCutOff_eq]
  refine (Alike.ofFault _).bindSame fun isLate => ?_
  cases isLate with
  | true => exact (advance_alike inStep limit).bindSame fun _ => .pure (.same _)
  | false =>
      rw [takes_eq]
      exact (advance_alike inStep _).bindSame fun _ => settle_alike client alike

theorem report_alike (line : String) (limit : Time) {first second : Git.Outcome}
    (calls : stage.CallsAlike first second) :
    Alike related stage.PrintsAlike (client.report line directory limit first)
      (client.report line directory limit second) := by
  have exits : ∀ {left right errors : String} {code : Int},
      stage.PrintsAlike (left, code) (right, code) →
        Alike related stage.PrintsAlike
          (client.report line directory limit (.exited left errors code))
          (client.report line directory limit (.exited right errors code)) := by
    intro left right errors code prints
    unfold Git.Client.report
    dsimp only
    split
    · exact (Alike.log inStep.toEven _ _ _).bindSame fun _ => .pure prints
    · exact .pure prints
  cases calls with
  | exited prints => exact exits prints
  | same =>
      cases first with
      | exited output errors code => exact exits (.inl rfl)
      | expired =>
          exact (Alike.ofFault _).bindSame fun seconds =>
            (Alike.log inStep.toEven _ _ _).bindSame fun _ => .fail (Failure.isListed_git _ _)
      | missing =>
          refine .look fun left right kept => ?_
          rw [inStep.files kept, inStep.cwd kept]
          split
          · exact .fail (Failure.isListed_git _ _)
          · exact .fail (Failure.isListed_git _ _)
      | notADirectory => exact .fail (Failure.isListed_git _ _)

theorem run_alike (left : Option Time) :
    Alike related stage.PrintsAlike
      (client.run (stage.arguments remote length) directory left)
      (client.run (stage.arguments remote length) directory left) :=
  (Alike.ofFault _).bindSame fun limit => (Alike.ofFault _).bindSame fun line =>
    (Alike.log inStep.toEven _ _ _).bindSame fun _ =>
      (call_alike inStep client stage remote length directory limit).bind fun _ _ calls =>
        report_alike inStep client stage directory line limit calls

theorem remaining_alike (deadline : Option Time) :
    Alike related Eq (remaining deadline) (remaining deadline) := by
  cases deadline with
  | none => exact .pure rfl
  | some deadline =>
      refine .look fun left right kept => ?_
      rw [inStep.clock kept]
      refine (Alike.ofFault _).bindSame fun left => (Alike.ofFault _).bindSame fun isSpent => ?_
      cases isSpent with
      | true => exact .fail (Failure.isListed_git _ _)
      | false => exact .pure rfl

/-- **The calls of a stage are alike.**  Where the remotes lead to the same place, a call fails in
the same way in both worlds, or what is printed is alike. -/
theorem Service.call_alike (service : Service Time) (deadline : Option Time) :
    Alike related stage.PrintsAlike (service.call stage directory deadline)
      (service.call stage directory deadline) := by
  refine (remaining_alike inStep deadline).bindSame fun left => ?_
  split
  · exact .fail (Failure.isListed_fault _)
  · exact run_alike inStep service.client stage _ _ directory left

end Calling

/-! ## What is read off a call -/

/-- What two queries may find: the same, save that remote URLs need only lead to the same place. -/
def Query.FindsAlike (query : Query) (left right : Finding) : Prop :=
  left = right ∨ (query = .remoteUrl ∧ Remote.SamePlace left.text right.text)

theorem Query.FindsAlike.refl (query : Query) (finding : Finding) :
    query.FindsAlike finding finding := .inl rfl

/-- What cannot be read off a call is listed: it is a gap. -/
theorem Service.isListed_of_read {service : Service Time} {query : Query} {printed : String × Int}
    {failure : Failure} (fails : service.read query printed = .error failure) :
    failure.IsListed := by
  have gap : ∀ (field : Failure.GapField) (arguments : List String) (silence : String),
      (service.client.readLine arguments field silence printed).map Finding.line = .error failure →
        failure.IsListed := by
    intro field arguments silence fails
    unfold Git.Client.readLine at fails
    split at fails
    · obtain rfl := Except.error.inj fails
      exact Failure.isListed_git _ _
    · split at fails
      · obtain rfl := Except.error.inj fails
        exact Failure.isListed_git _ _
      · cases fails
  cases query with
  | remoteUrl => exact gap _ _ _ fails
  | hash => exact gap _ _ _ fails
  | shortHash => exact gap _ _ _ fails
  | branch =>
      simp only [Service.read, Git.Client.readBranches] at fails
      split at fails
      · obtain rfl := Except.error.inj fails
        exact Failure.isListed_git _ _
      · cases fails
  | tags => cases fails
  | timestamp => cases fails

/-- What the exit of a call refuses is a problem with the repository. -/
theorem Service.isListed_of_refusal? {service : Service Time} {directory : String} {stage : Stage}
    {printed : String × Int} {failure : Failure}
    (refuses : service.refusal? directory stage printed = some failure) : failure.IsListed := by
  unfold Service.refusal? at refuses
  split at refuses
  · split at refuses
    · obtain rfl := Option.some.inj refuses
      exact Failure.isListed_git _ _
    · cases refuses
  · split at refuses
    · obtain rfl := Option.some.inj refuses
      exact Failure.isListed_git _ _
    · split at refuses
      · obtain rfl := Option.some.inj refuses
        exact Failure.isListed_git _ _
      · cases refuses
  · cases refuses

/-- **What is read off two calls is alike.** -/
theorem Service.read_alike (service : Service Time) (query : Query) {left right : String × Int}
    (prints : (Stage.fact query).PrintsAlike left right) :
    Agree query.FindsAlike (service.read query left) (service.read query right) := by
  rcases prints with rfl | ⟨asksRemote, code, blank, place⟩
  · exact .refl (Query.FindsAlike.refl query) fun failure => isListed_of_read
  · obtain rfl : query = .remoteUrl := Stage.fact.inj asksRemote
    simp only [Service.read, Git.Client.readLine, code, blank]
    split
    · exact .error (Failure.isListed_git _ _)
    · split
      · exact .error (Failure.isListed_git _ _)
      · exact .ok (.inr ⟨rfl, place⟩)

/-! ## The questions -/

section Asking

variable [Timekeeping Time] {related : World Time → World Time → Prop}
  (inStep : InStep related) (service : Service Time) (directory : String)
  (deadline : Option Time)

include inStep

theorem requireRepository_alike :
    Alike related Eq (service.requireRepository directory deadline)
      (service.requireRepository directory deadline) := by
  rw [requireRepository_eq]
  refine (Service.call_alike inStep .status directory service deadline).bind
    fun printed _ prints => ?_
  obtain rfl := Stage.eq_of_printsAlike (by decide) prints
  rw [readStatus_eq service]
  refine .ofResult ?_
  cases refuses : service.refusal? directory .status printed with
  | some failure => exact .error (Service.isListed_of_refusal? refuses)
  | none => exact .ok rfl

theorem rootOf_alike :
    Alike related Eq (service.rootOf directory deadline) (service.rootOf directory deadline) := by
  rw [rootOf_eq]
  refine (Service.call_alike inStep .root directory service deadline).bind
    fun printed _ prints => ?_
  obtain rfl := Stage.eq_of_printsAlike (by decide) prints
  rw [readRoot_eq service directory]
  refine .ofResult ?_
  cases refuses : service.refusal? directory .root printed with
  | some failure => exact .error (Service.isListed_of_refusal? refuses)
  | none => exact .ok rfl

theorem ask_alike (query : Query) :
    Alike related query.FindsAlike (ask service.client service.remote directory deadline query)
      (ask service.client service.remote directory deadline query) := by
  rw [ask_eq]
  exact (Service.call_alike inStep (.fact query) directory service deadline).bind
    fun _ _ prints => .ofResult (service.read_alike query prints)

end Asking
end Assembly
end Provenance
