import Mathlib.Tactic.Linarith
import Provenance.Proofs.Assembly.FirstFailure

/-!
Contract: an assembly within a limit, beside one within a longer limit.

Owns:
- `NoLater`, the order of deadlines, where none is the last of all;
- `Course.IsCutFrom`, a course that is another one, or that runs out of time on its way;
- `Service.assemble_isCutShort`, the law that a limit can end an assembly and not change
  it, and that a longer limit never hurts.

Does **not** own: asking side by side, and how much time a limit leaves.

## Why two runs stay together

Both runs start at the same moment, and a call that is answered lasts as long as its
answer takes, whatever its limit.  So until the first call that the tighter limit cuts
off, both clocks agree, and at that call the first run is over.
-/

set_option autoImplicit false

namespace Provenance.Assembly

open World (Call)

/-! ## Deadlines -/

/-- A deadline is not later than another one. -/
def NoLater (deadline later : Option Rat) : Prop :=
  ∀ moment ∈ later, ∃ earlier ∈ deadline, earlier ≤ moment

section Deadlines

variable {deadline later : Option Rat} {clock : Rat}

theorem isPast_of_noLater (noLater : NoLater deadline later)
    (notPast : isPast deadline clock = false) : isPast later clock = false := by
  cases later with
  | none => rfl
  | some moment =>
      obtain ⟨earlier, rfl, le⟩ := noLater moment rfl
      simp only [isPast, Option.any_some, decide_eq_false_iff_not, not_le] at notPast ⊢
      exact lt_of_lt_of_le notPast le

theorem Service.limitAt_le (service : Service Rat) (noLater : NoLater deadline later)
    (clock : Rat) : service.limitAt deadline clock ≤ service.limitAt later clock := by
  unfold limitAt Git.Client.limitWithin
  cases later with
  | none =>
      cases deadline with
      | none => exact le_refl _
      | some earlier => exact min_le_left _ _
  | some moment =>
      obtain ⟨earlier, rfl, le⟩ := noLater moment rfl
      exact min_le_min_left _ (by simpa using le)

/-- A longer limit does not make the deadline earlier; a limit of zero is none. -/
theorem Service.noLater_deadlineFrom (service : Service Rat) {limit longer : Option Rat}
    {span : Rat} (limited : limit.or service.deadlineSeconds = some span) (span_pos : 0 < span)
    (isLonger : ∀ other, longer.or service.deadlineSeconds = some other →
      other = 0 ∨ span ≤ other) (clock : Rat) :
    NoLater (service.deadlineFrom limit clock) (service.deadlineFrom longer clock) := by
  intro moment member
  have deadline_eq : service.deadlineFrom limit clock = some (clock + span) := by
    unfold deadlineFrom
    rw [limited]
    exact if_neg span_pos.ne'
  refine ⟨clock + span, deadline_eq, ?_⟩
  unfold deadlineFrom at member
  cases spans : longer.or service.deadlineSeconds with
  | none =>
      rw [spans] at member
      cases member
  | some other =>
      rw [spans] at member
      by_cases zero : other = 0
      · cases (if_pos zero).symm.trans member
      · obtain rfl := Option.some.inj ((if_neg zero).symm.trans member)
        have le := (isLonger other spans).resolve_left zero
        linarith

end Deadlines

/-! ## Courses -/

namespace Course

def commands (course : Course) : List (List String) :=
  course.made.map (·.command)

/-- A course that makes the calls of another one and ends as that does, or that runs out of time
before. -/
structure IsCutFrom (course whole : Course) : Prop where
  inOrder : course.commands <+: whole.commands
  ends : (course.failure = whole.failure ∧ course.clock = whole.clock ∧
      course.commands = whole.commands) ∨
    ∃ detail, course.failure = some (Failure.git .timeout detail)

theorem IsCutFrom.of_same {course whole : Course} (failure : course.failure = whole.failure)
    (clock : course.clock = whole.clock) (commands : course.commands = whole.commands) :
    course.IsCutFrom whole where
  inOrder := commands ▸ List.prefix_refl _
  ends := .inl ⟨failure, clock, commands⟩

theorem IsCutFrom.cons {course whole : Course} (isCut : course.IsCutFrom whole)
    {call other : Call Rat} (same : call.command = other.command) :
    (course.cons call).IsCutFrom (whole.cons other) where
  inOrder := List.cons_prefix_cons.mpr ⟨same, isCut.inOrder⟩
  ends := isCut.ends.imp_left fun ⟨failure, clock, commands⟩ =>
    ⟨failure, clock, congrArg₂ List.cons same commands⟩

/-- What a course comes to that is cut from another one. -/
theorem IsCutFrom.ending_cases {α : Type} {course whole : Course} (isCut : course.IsCutFrom whole)
    (value : Except Failure α) :
    (course.ending value = whole.ending value ∧ course.clock = whole.clock ∧
        course.commands = whole.commands) ∨
      ∃ detail, course.ending value = .error (Failure.git .timeout detail) := by
  rcases isCut.ends with ⟨failure, clock, commands⟩ | ⟨detail, timedOut⟩
  · refine .inl ⟨?_, clock, commands⟩
    unfold ending
    rw [failure]
  · refine .inr ⟨detail, ?_⟩
    unfold ending
    rw [timedOut]

end Course

/-! ## A call within a longer limit -/

namespace Service

section Calls

variable (service : Service Rat) (world : World Rat) (directory : String)
  {stage : Stage} {limit longer : Rat}

/-- A call that its limit leaves time comes to the same within a longer one. -/
theorem failure?_of_longer (inTime : (service.answerTo world stage).takes ≤ limit)
    (le : limit ≤ longer) :
    service.failure? stage directory world limit =
      service.failure? stage directory world longer := by
  cases hangs : (service.answerTo world stage).hangs with
  | true => rw [failure?_of_hangs inTime hangs, failure?_of_hangs (inTime.trans le) hangs]
  | false =>
      rw [failure?_of_isInTime ⟨inTime, hangs⟩, failure?_of_isInTime ⟨inTime.trans le, hangs⟩]

variable {deadline later : Option Rat} {rest : List Stage} {clock : Rat}

/-- A stage that is due before the deadline is called first. -/
theorem command_isPrefix (notPast : isPast deadline clock = false)
    (spoken : service.fault? stage directory = none) :
    [service.client.command (service.arguments stage)] <+:
      (service.course world directory deadline (stage :: rest) clock).commands := by
  cases fails : service.failure? stage directory world (service.limitAt deadline clock) with
  | some failure =>
      rw [course_cons_of_failure notPast spoken fails]
      exact List.prefix_refl _
  | none =>
      rw [course_cons_of_pass notPast spoken fails]
      exact List.cons_prefix_cons.mpr ⟨rfl, List.nil_prefix⟩

/-- **A course with an earlier deadline is cut from one with a later deadline.** -/
theorem course_isCutFrom (noLater : NoLater deadline later) (stages : List Stage) (clock : Rat) :
    (service.course world directory deadline stages clock).IsCutFrom
      (service.course world directory later stages clock) := by
  -- The invariant is that both courses are at the same moment; the first call that is cut off ends it.
  induction stages generalizing clock with
  | nil => exact .of_same rfl rfl rfl
  | cons stage rest inductionHypothesis =>
      cases past : isPast deadline clock with
      | true =>
          rw [course_cons_of_isPast past]
          exact ⟨List.nil_prefix, .inr ⟨deadlineDetail, rfl⟩⟩
      | false =>
          have pastLater := isPast_of_noLater noLater past
          cases spoken : service.fault? stage directory with
          | some fault =>
              rw [course_cons_of_fault past spoken, course_cons_of_fault pastLater spoken]
              exact .of_same rfl rfl rfl
          | none =>
              have le := service.limitAt_le noLater clock
              by_cases cutOff : service.limitAt deadline clock <
                  (service.answerTo world stage).takes
              · rw [course_cons_of_failure past spoken (failure?_of_late cutOff)]
                exact ⟨service.command_isPrefix world directory pastLater spoken, .inr ⟨_, rfl⟩⟩
              · have inTime := not_lt.mp cutOff
                have lasts : service.lastsAt stage world deadline clock =
                    service.lastsAt stage world later clock :=
                  (min_eq_left inTime).trans (min_eq_left (inTime.trans le)).symm
                have fails := service.failure?_of_longer world directory inTime le
                cases failure_eq : service.failure? stage directory world
                    (service.limitAt deadline clock) with
                | some failure =>
                    rw [course_cons_of_failure past spoken failure_eq,
                      course_cons_of_failure pastLater spoken (fails.symm.trans failure_eq), lasts]
                    exact .of_same rfl rfl rfl
                | none =>
                    rw [course_cons_of_pass past spoken failure_eq,
                      course_cons_of_pass pastLater spoken (fails.symm.trans failure_eq), lasts]
                    exact (inductionHypothesis _).cons rfl

end Calls

/-! ## Whole assemblies -/

/-- What is known of an assembly with a result, some calls and a clock beside another one that has
more time. -/
structure IsCutShort (result other : Except Failure (Service Rat × Record))
    (made others : List (Call Rat)) (clock otherClock : Rat) : Prop where
  /-- The record and the errors that it returns, the other one returns as well. -/
  returns : ∀ answer, result = .ok answer → other = .ok answer
  /-- The calls are those of the other one, as far as they go. -/
  inOrder : made.map (·.command) <+: others.map (·.command)
  /-- It does just what the other one does, or it runs out of time. -/
  ends : (result = other ∧ made.map (·.command) = others.map (·.command) ∧ clock = otherClock) ∨
    ∃ detail, result = .error (Failure.git .timeout detail)

/-- **A limit can end an assembly and not change it, and a longer limit never hurts.**  One question
after another, an assembly within a limit does what it does within any longer one, or without one,
or else it raises a time-out. -/
theorem assemble_isCutShort (service : Service Rat) (world : World Rat) (directory : String)
    (limit longer : Option Rat) {span : Rat}
    (sequential : service.parallel ≤ 1)
    (limited : limit.or service.deadlineSeconds = some span)
    (span_pos : 0 < span)
    (isLonger : ∀ other, longer.or service.deadlineSeconds = some other →
      other = 0 ∨ span ≤ other) :
    ∃ (result other : Except Failure (Service Rat × Record)) (after last : World Rat)
        (made others : List (Call Rat)),
      (service.assemble directory limit).runIn world = (result, after) ∧
        World.calls after.trace = World.calls world.trace ++ made ∧
        (service.assemble directory longer).runIn world = (other, last) ∧
        World.calls last.trace = World.calls world.trace ++ others ∧
        IsCutShort result other made others after.clock last.clock := by
  obtain ⟨after, assembles, follows, clock⟩ := service.assembleAlong_runIn world directory
    sequential Pool.Schedule.inOrder limit
  obtain ⟨last, assemblesToo, followsToo, clockToo⟩ := service.assembleAlong_runIn world directory
    sequential Pool.Schedule.inOrder longer
  refine ⟨_, _, after, last, _, _, assembles, follows.calls, assemblesToo, followsToo.calls, ?_⟩
  have noLater := service.noLater_deadlineFrom limited span_pos isLonger world.clock
  have isCut : (service.wholeCourse world directory limit).IsCutFrom
      (service.wholeCourse world directory longer) := by
    unfold wholeCourse
    cases service.absent? world with
    | some failure => exact .of_same rfl rfl rfl
    | none => exact service.course_isCutFrom world directory noLater Stage.all world.clock
  have ends := isCut.ending_cases
    (conclusion world directory (baseDirIn world) (service.facts world))
  rw [clock, clockToo]
  unfold wholeResult
  constructor
  case returns =>
    intro answer returns
    rcases ends with ⟨same, -⟩ | ⟨detail, timedOut⟩
    · rw [← same]
      exact returns
    · rw [timedOut] at returns
      cases returns
  case inOrder => exact isCut.inOrder
  case ends =>
    rcases ends with ⟨same, clocks, commands⟩ | ⟨detail, timedOut⟩
    · exact .inl ⟨by rw [same], commands, clocks⟩
    · exact .inr ⟨detail, by rw [timedOut]; rfl⟩

/-- The law at work: three seconds are not enough where every call takes one, and an assembly that
may take as long as it likes makes more calls. -/
theorem assemble_isCutShort_answered :
    (answeredService 8 1).parallel ≤ 1 ∧
      (some 3 : Option Rat).or (answeredService 8 1).deadlineSeconds = some 3 ∧ (0 : Rat) < 3 ∧
      (∀ other : Rat, (some 0 : Option Rat).or (answeredService 8 1).deadlineSeconds = some other →
        other = 0 ∨ 3 ≤ other) ∧
      ∃ (result other : Except Failure (Service Rat × Record)) (after last : World Rat)
          (made others : List (Call Rat)),
        ((answeredService 8 1).assemble "/" (some 3)).runIn (answeringWorld 1) = (result, after) ∧
          World.calls after.trace = World.calls (answeringWorld 1).trace ++ made ∧
          ((answeredService 8 1).assemble "/" (some 0)).runIn (answeringWorld 1) = (other, last) ∧
          World.calls last.trace = World.calls (answeringWorld 1).trace ++ others ∧
          IsCutShort result other made others after.clock last.clock := by
  have unlimited : ∀ other : Rat,
      (some 0 : Option Rat).or (answeredService 8 1).deadlineSeconds = some other →
        other = 0 ∨ 3 ≤ other := fun other same => .inl (Option.some.inj same).symm
  exact ⟨by decide, rfl, by decide, unlimited,
    assemble_isCutShort (answeredService 8 1) (answeringWorld 1) "/" (some 3) (some 0) (by decide)
      rfl (by decide) unlimited⟩

end Service
end Provenance.Assembly
