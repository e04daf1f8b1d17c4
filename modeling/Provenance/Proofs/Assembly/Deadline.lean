import Mathlib.Tactic.Linarith
import Provenance.Proofs.Assembly.Passage

/-!
Contract: an overall deadline bounds a whole assembly.

Owns:
- `Service.KeepsDeadline`, what a deadline means for the calls of an assembly, for its
  clock and for what it comes to;
- `Service.assemble_keepsDeadline`, the law that every assembly keeps it.

Does **not** own: calls that have no deadline, and asking side by side.

## Why the clock cannot run past it

What is left of the deadline is looked up again before every call.  So a call is
made only while something is left, and it is cut off where that is used up.
-/

set_option autoImplicit false

namespace Provenance.Assembly

open World (Call)

theorem lasts_le (answer : Git.Answer Rat) (limit : Rat) : answer.lasts limit ≤ limit :=
  min_le_right _ _

theorem isPast_eq_false {deadline clock : Rat} (notPast : isPast (some deadline) clock = false) :
    clock < deadline := by
  simpa [isPast] using notPast

namespace Service

/-- What a deadline means for an assembly that made some calls, came to a result and left the clock
at some moment. -/
structure KeepsDeadline (service : Service Rat) (world : World Rat) (directory : String)
    (deadline : Rat) (made : List (Call Rat))
    (result : Except Failure (Service Rat × Record)) (clock : Rat) : Prop where
  /-- Each call starts when those before it are over. -/
  consecutive : ∀ (count : Nat) (call : Call Rat), made[count]? = some call →
    call.start = clockAfter world.script world.clock (made.take count)
  /-- A call starts only while something is left. -/
  early : ∀ call ∈ made, call.start < deadline
  /-- It is given the client's own limit, or what is left where that is less. -/
  limited : ∀ call ∈ made, call.limit = min service.client.timeout (deadline - call.start)
  positive : ∀ call ∈ made, 0 < call.limit
  /-- Between any two calls the clock has not run past the deadline. -/
  punctual : ∀ count : Nat,
    clockAfter world.script world.clock (made.take count) ≤ deadline
  /-- The clock is left where the last call is over, and not past the deadline. -/
  leaves : clock = clockAfter world.script world.clock made
  bounded : clock ≤ deadline
  /-- Once the deadline has been reached when a further call is due, that call is not made. -/
  expires : ∀ count < Stage.all.length, count ≤ made.length →
    (∀ (place : Nat) (stage : Stage) (call : Call Rat), place < count →
      Stage.all[place]? = some stage → made[place]? = some call →
        service.failure? stage directory world call.limit = none) →
      deadline ≤ clockAfter world.script world.clock (made.take count) →
        made.length = count ∧ result = .error deadlineExceeded

variable {service : Service Rat} {world : World Rat} {directory : String} {deadline clock : Rat}

private theorem start_limit_of_made {call : Call Rat}
    (member : call ∈ (service.course world directory (some deadline) Stage.all clock).made) :
    call.start < deadline ∧
      call.limit = min service.client.timeout (deadline - call.start) := by
  obtain ⟨count, made⟩ := List.mem_iff_getElem?.mp member
  obtain ⟨stage, -, notPast, -, called, -⟩ := call_of_made made
  refine ⟨isPast_eq_false notPast, ?_⟩
  rw [called]
  rfl

private theorem clockAfter_le (notLate : clock ≤ deadline) (count : Nat) :
    clockAfter world.script clock
      ((service.course world directory (some deadline) Stage.all clock).made.take count) ≤
        deadline := by
  induction count with
  | zero => exact notLate
  | succ count inductionHypothesis =>
      rw [List.take_add_one]
      cases made :
          (service.course world directory (some deadline) Stage.all clock).made[count]? with
      | none => simpa using inductionHypothesis
      | some call =>
          obtain ⟨stage, -, -, -, -, starts⟩ := call_of_made made
          obtain ⟨-, limited⟩ := start_limit_of_made (List.mem_of_getElem? made)
          have lasts : (world.script.answer call.command.tail).lasts call.limit ≤
              deadline - call.start :=
            (lasts_le _ _).trans (limited.le.trans (min_le_right _ _))
          rw [Option.toList_some, clockAfter_snoc, ← starts]
          linarith

private theorem hasPassed_of_unfailing {stages : List Stage} {count : Nat}
    (within : count ≤ (service.course world directory (some deadline) stages clock).made.length)
    (inside : count ≤ stages.length)
    (unfailing : ∀ (place : Nat) (stage : Stage) (call : Call Rat), place < count →
      stages[place]? = some stage →
        (service.course world directory (some deadline) stages clock).made[place]? = some call →
          service.failure? stage directory world call.limit = none) :
    service.HasPassed world directory (some deadline) stages clock
      ((service.course world directory (some deadline) stages clock).made.take count) := by
  cases count with
  | zero => exact hasPassed_nil
  | succ last =>
      have next := List.getElem?_eq_getElem (Nat.lt_of_succ_le inside)
      have made := List.getElem?_eq_getElem (Nat.lt_of_succ_le within)
      exact hasPassed_of_passes made next (unfailing last _ _ (Nat.lt_succ_self last) next made)

private theorem keepsDeadline_of_course (timeout_pos : 0 < service.client.timeout)
    (notLate : world.clock ≤ deadline)
    (value : Except Failure (Record × List Failure.Problem)) :
    KeepsDeadline service world directory deadline
      (service.course world directory (some deadline) Stage.all world.clock).made
      (((service.course world directory (some deadline) Stage.all world.clock).ending value).map
        service.kept)
      (service.course world directory (some deadline) Stage.all world.clock).clock where
  consecutive := by
    intro count call made
    obtain ⟨stage, -, -, -, -, starts⟩ := call_of_made made
    exact starts
  early := fun call member => (start_limit_of_made member).1
  limited := fun call member => (start_limit_of_made member).2
  positive := by
    intro call member
    obtain ⟨early, limited⟩ := start_limit_of_made member
    rw [limited]
    exact lt_min timeout_pos (sub_pos.mpr early)
  punctual := clockAfter_le notLate
  leaves := course_clock service world directory (some deadline) Stage.all world.clock
  bounded := by
    have punctual : clockAfter world.script world.clock
        ((service.course world directory (some deadline) Stage.all world.clock).made.take
          (service.course world directory (some deadline) Stage.all world.clock).made.length) ≤
            deadline := clockAfter_le notLate _
    rwa [List.take_length, ← course_clock] at punctual
  expires := by
    intro count inside within unfailing late
    have passed := hasPassed_of_unfailing within inside.le unfailing
    have length_take := List.length_take_of_le within
    have next := List.getElem?_eq_getElem inside
    have stops := course_of_isPast passed (by rw [length_take]; exact next)
      (by simpa [isPast] using late)
    refine ⟨(congrArg (fun course => course.made.length) stops).trans length_take, ?_⟩
    unfold Course.ending
    rw [stops]
    rfl

private theorem keepsDeadline_nil (early : world.clock < deadline)
    (result : Except Failure (Service Rat × Record)) :
    KeepsDeadline service world directory deadline [] result world.clock where
  consecutive := by simp
  early := by simp
  limited := by simp
  positive := by simp
  punctual := by simpa using early.le
  leaves := rfl
  bounded := early.le
  expires := by
    intro count inside within unfailing late
    rw [List.take_nil, clockAfter_nil] at late
    exact absurd late (not_le.mpr early)

/-- **The deadline bounds the whole run.**  One question after another, an assembly with a positive
limit makes every call before its deadline and within what is left of it, and is over when it has
been reached. -/
theorem assemble_keepsDeadline (service : Service Rat) (world : World Rat) (directory : String)
    (limit : Option Rat) {span : Rat}
    (sequential : service.parallel ≤ 1)
    (timeout_pos : 0 < service.client.timeout)
    (limited : limit.or service.deadlineSeconds = some span)
    (span_pos : 0 < span) :
    ∃ (made : List (Call Rat)) (result : Except Failure (Service Rat × Record))
        (after : World Rat),
      (service.assemble directory limit).runIn world = (result, after) ∧
        World.calls after.trace = World.calls world.trace ++ made ∧
        KeepsDeadline service world directory (world.clock + span) made result after.clock := by
  obtain ⟨after, assembles, follows, leaves⟩ := service.assembleAlong_runIn world directory
    sequential Pool.Schedule.inOrder limit
  refine ⟨_, _, after, assembles, follows.calls, ?_⟩
  have deadlineFrom_eq : service.deadlineFrom limit world.clock = some (world.clock + span) := by
    unfold deadlineFrom
    rw [limited]
    exact if_neg span_pos.ne'
  have early : world.clock < world.clock + span := by linarith
  rw [leaves]
  unfold wholeResult wholeCourse
  rw [deadlineFrom_eq]
  cases service.absent? world with
  | none => exact keepsDeadline_of_course timeout_pos early.le _
  | some failure => exact keepsDeadline_nil early _

/-- The law at work: where every call takes a second, the time runs out after three. -/
theorem assemble_keepsDeadline_answered :
    (answeredService 8 1).parallel ≤ 1 ∧ 0 < (answeredService 8 1).client.timeout ∧
      (some 3 : Option Rat).or (answeredService 8 1).deadlineSeconds = some 3 ∧ (0 : Rat) < 3 ∧
        ∃ (made : List (Call Rat)) (result : Except Failure (Service Rat × Record))
            (after : World Rat),
          ((answeredService 8 1).assemble "/" (some 3)).runIn (answeringWorld 1) =
              (result, after) ∧
            World.calls after.trace = World.calls (answeringWorld 1).trace ++ made ∧
            KeepsDeadline (answeredService 8 1) (answeringWorld 1) "/" (1000 + 3) made result
              after.clock :=
  ⟨by decide, by decide, rfl, by decide,
    assemble_keepsDeadline (answeredService 8 1) (answeringWorld 1) "/" (some 3) (by decide)
      (by decide) rfl (by decide)⟩

end Service
end Provenance.Assembly
