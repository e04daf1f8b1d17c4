import Provenance.Proofs.Assembly.Run

/-!
Contract: how far an assembly has come.

Owns:
- `clockAfter`, the moment at which some calls are over;
- `Service.HasPassed`, the calls that an assembly has behind it while it goes on;
- what the next stage does to it, and that every call but the last has been
  passed.

Does **not** own: the limits of the calls, with or without a deadline.

## Why passing is a relation on calls

The laws of a whole course are about its calls: which was the last, and when each
of them started.  A course whose first calls have been passed is those calls
followed by the course of the remaining stages, so whatever the next stage does is
read off the head of that course.
-/

set_option autoImplicit false

namespace Provenance.Assembly

open Failure (Problem Fault)
open World (Call)

/-- The moment at which some calls are over that are made one after another from a moment on. -/
def clockAfter (script : Git.Script Rat) (clock : Rat) (calls : List (Call Rat)) : Rat :=
  calls.foldl (fun reached call => reached + (script.answer call.command.tail).lasts call.limit)
    clock

@[simp] theorem clockAfter_nil (script : Git.Script Rat) (clock : Rat) :
    clockAfter script clock [] = clock := rfl

theorem clockAfter_snoc (script : Git.Script Rat) (clock : Rat) (call : Call Rat)
    (calls : List (Call Rat)) :
    clockAfter script clock (calls ++ [call]) =
      clockAfter script clock calls +
        (script.answer call.command.tail).lasts call.limit := by
  unfold clockAfter
  rw [List.foldl_append]
  rfl

def Course.prepend (calls : List (Call Rat)) (course : Course) : Course :=
  { course with made := calls ++ course.made }

namespace Service

variable (service : Service Rat) (world : World Rat) (directory : String)
  (deadline : Option Rat) (stages : List Stage) (clock : Rat)

theorem lastsAt_eq (stage : Stage) (moment : Rat) :
    service.lastsAt stage world deadline moment =
      (world.script.answer (service.callAt stage directory deadline moment).command.tail).lasts
        (service.callAt stage directory deadline moment).limit := rfl

theorem course_clock :
    (service.course world directory deadline stages clock).clock =
      clockAfter world.script clock
        (service.course world directory deadline stages clock).made := by
  induction stages generalizing clock with
  | nil => rfl
  | cons stage rest inductionHypothesis =>
      obtain ⟨failure, stops⟩ | ⟨-, -, ⟨failure, stops⟩ | passes⟩ :=
        service.course_cons_cases world directory deadline stage rest clock
      · rw [stops, clockAfter_nil]
      · rw [stops]
        rfl
      · rw [passes]
        exact inductionHypothesis _

/-- An assembly has made some calls, one for each of its first stages, and goes on with the rest. -/
def HasPassed (calls : List (Call Rat)) : Prop :=
  service.course world directory deadline stages clock =
    (service.course world directory deadline (stages.drop calls.length)
      (clockAfter world.script clock calls)).prepend calls

variable {service world directory deadline stages clock}
variable {calls : List (Call Rat)} {stage : Stage}

theorem hasPassed_nil : service.HasPassed world directory deadline stages clock [] := rfl

private theorem drop_of_next (next : stages[calls.length]? = some stage) :
    stages.drop calls.length = stage :: stages.drop (calls.length + 1) := by
  obtain ⟨inside, rfl⟩ := List.getElem?_eq_some_iff.mp next
  exact List.drop_eq_getElem_cons inside

/-! ## What the next stage does -/

section Next

variable (passed : service.HasPassed world directory deadline stages clock calls)
  (next : stages[calls.length]? = some stage)

include passed in
/-- An assembly that has passed all stages has come to its end. -/
theorem course_of_all_passed (complete : stages.length ≤ calls.length) :
    service.course world directory deadline stages clock =
      ⟨calls, clockAfter world.script clock calls, none⟩ := by
  rw [passed, List.drop_eq_nil_of_le complete]
  simp [course, Course.prepend]

include passed next

theorem course_of_isPast (past : isPast deadline (clockAfter world.script clock calls) = true) :
    service.course world directory deadline stages clock =
      ⟨calls, clockAfter world.script clock calls, some deadlineExceeded⟩ := by
  rw [passed, drop_of_next next, course_cons_of_isPast past]
  simp [Course.prepend]

theorem course_of_failure {failure : Failure}
    (notPast : isPast deadline (clockAfter world.script clock calls) = false)
    (spoken : service.fault? stage directory = none)
    (fails : service.failure? stage directory world
      (service.limitAt deadline (clockAfter world.script clock calls)) = some failure) :
    ∃ after, service.course world directory deadline stages clock =
      ⟨calls ++ [service.callAt stage directory deadline (clockAfter world.script clock calls)],
        after, some failure⟩ := by
  rw [passed, drop_of_next next, course_cons_of_failure notPast spoken fails]
  exact ⟨_, rfl⟩

/-- A call that does not fail is passed. -/
theorem hasPassed_snoc
    (notPast : isPast deadline (clockAfter world.script clock calls) = false)
    (spoken : service.fault? stage directory = none)
    (passes : service.failure? stage directory world
      (service.limitAt deadline (clockAfter world.script clock calls)) = none) :
    service.HasPassed world directory deadline stages clock
      (calls ++ [service.callAt stage directory deadline
        (clockAfter world.script clock calls)]) := by
  unfold HasPassed
  rw [passed, drop_of_next next, course_cons_of_pass notPast spoken passes, clockAfter_snoc,
    ← lastsAt_eq]
  simp [Course.prepend, Course.cons]

end Next

/-! ## Every call but the last has been passed -/

section Made

/-- **The next call.**  An assembly that makes one more call than it has passed makes that of the
next stage, before the deadline. -/
theorem next_of_hasPassed
    (passed : service.HasPassed world directory deadline stages clock calls)
    (within : calls.length <
      (service.course world directory deadline stages clock).made.length) :
    ∃ stage, stages[calls.length]? = some stage ∧
      isPast deadline (clockAfter world.script clock calls) = false ∧
      service.fault? stage directory = none ∧
      (service.course world directory deadline stages clock).made[calls.length]? =
        some (service.callAt stage directory deadline (clockAfter world.script clock calls)) := by
  by_cases complete : stages.length ≤ calls.length
  · rw [course_of_all_passed passed complete] at within
    exact absurd within (lt_irrefl _)
  obtain ⟨stage, next⟩ : ∃ stage, stages[calls.length]? = some stage :=
    ⟨_, List.getElem?_eq_getElem (not_le.mp complete)⟩
  refine ⟨stage, next, ?_⟩
  rw [passed, drop_of_next next] at within ⊢
  obtain ⟨failure, stops⟩ | ⟨notPast, spoken, goesOn⟩ :=
    service.course_cons_cases world directory deadline stage (stages.drop (calls.length + 1))
      (clockAfter world.script clock calls)
  · rw [stops] at within
    simp [Course.prepend] at within
  · refine ⟨notPast, spoken, ?_⟩
    obtain ⟨failure, stops⟩ | passes := goesOn
    · rw [stops]
      simp [Course.prepend]
    · rw [passes]
      simp [Course.prepend, Course.cons]

variable {count : Nat} {call : Call Rat}

private theorem lt_of_made
    (made : (service.course world directory deadline stages clock).made[count]? = some call) :
    count < (service.course world directory deadline stages clock).made.length :=
  (List.getElem?_eq_some_iff.mp made).1

private theorem call_of_hasPassed_take
    (passed : service.HasPassed world directory deadline stages clock
      ((service.course world directory deadline stages clock).made.take count))
    (made : (service.course world directory deadline stages clock).made[count]? = some call) :
    ∃ stage, stages[count]? = some stage ∧ isPast deadline call.start = false ∧
      service.fault? stage directory = none ∧
      call = service.callAt stage directory deadline call.start ∧
      call.start = clockAfter world.script clock
        ((service.course world directory deadline stages clock).made.take count) := by
  have length_take := List.length_take_of_le (lt_of_made made).le
  obtain ⟨stage, next, notPast, spoken, called⟩ :=
    next_of_hasPassed passed (by rw [length_take]; exact lt_of_made made)
  rw [length_take] at next called
  obtain rfl := Option.some.inj (made.symm.trans called)
  exact ⟨stage, next, notPast, spoken, rfl, rfl⟩

/-- A call that fails is the last; one that does not has been passed with those before it. -/
private theorem ends_or_hasPassed
    (passed : service.HasPassed world directory deadline stages clock
      ((service.course world directory deadline stages clock).made.take count))
    (made : (service.course world directory deadline stages clock).made[count]? = some call)
    (next : stages[count]? = some stage) :
    match service.failure? stage directory world call.limit with
    | some failure =>
      (service.course world directory deadline stages clock).made.length = count + 1 ∧
        (service.course world directory deadline stages clock).failure = some failure
    | none =>
      service.HasPassed world directory deadline stages clock
        ((service.course world directory deadline stages clock).made.take (count + 1)) := by
  have length_take := List.length_take_of_le (lt_of_made made).le
  obtain ⟨other, same, notPast, spoken, called, starts⟩ := call_of_hasPassed_take passed made
  obtain rfl := Option.some.inj (next.symm.trans same)
  rw [← length_take] at next
  rw [starts] at called notPast
  cases fails : service.failure? stage directory world call.limit with
  | some failure =>
      rw [called] at fails
      obtain ⟨after, stops⟩ := course_of_failure passed next notPast spoken fails
      refine ⟨?_, by rw [stops]⟩
      have length_made := congrArg (fun course => course.made.length) stops
      simpa [length_take] using length_made
  | none =>
      rw [called] at fails
      have further := hasPassed_snoc passed next notPast spoken fails
      rw [← called] at further
      rw [List.take_add_one, made]
      exact further

/-- Every call but the last has been passed. -/
theorem hasPassed_take
    (within : count < (service.course world directory deadline stages clock).made.length) :
    service.HasPassed world directory deadline stages clock
      ((service.course world directory deadline stages clock).made.take count) := by
  -- A call with another behind it has not failed, for a failure would have made it the last.
  induction count with
  | zero => exact hasPassed_nil
  | succ count inductionHypothesis =>
      have earlier : count <
          (service.course world directory deadline stages clock).made.length := by omega
      have passed := inductionHypothesis earlier
      have made := List.getElem?_eq_getElem earlier
      obtain ⟨stage, next, -⟩ := call_of_hasPassed_take passed made
      have comes := ends_or_hasPassed passed made next
      split at comes
      · omega
      · exact comes

/-- **The calls of a course.**  Each is that of its stage, starts when those before it are over,
and starts before the deadline. -/
theorem call_of_made
    (made : (service.course world directory deadline stages clock).made[count]? = some call) :
    ∃ stage, stages[count]? = some stage ∧ isPast deadline call.start = false ∧
      service.fault? stage directory = none ∧
      call = service.callAt stage directory deadline call.start ∧
      call.start = clockAfter world.script clock
        ((service.course world directory deadline stages clock).made.take count) :=
  call_of_hasPassed_take (hasPassed_take (lt_of_made made)) made

theorem hasPassed_of_passes
    (made : (service.course world directory deadline stages clock).made[count]? = some call)
    (next : stages[count]? = some stage)
    (passes : service.failure? stage directory world call.limit = none) :
    service.HasPassed world directory deadline stages clock
      ((service.course world directory deadline stages clock).made.take (count + 1)) := by
  have comes := ends_or_hasPassed (hasPassed_take (lt_of_made made)) made next
  rwa [passes] at comes

end Made
end Service
end Provenance.Assembly
