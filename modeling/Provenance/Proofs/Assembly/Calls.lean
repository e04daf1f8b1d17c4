import Provenance.Proofs.Assembly.Told

/-!
Contract: how many calls of version control a program makes.

Owns:
- `World.HasCalled`, what holds as long as nothing is called;
- `MakesOne`, the programs that make one call, or none because of a severe failure, with the
  laws that the stages of an assembly are such programs;
- `outcomeOf_calls`, the calls of one question.

Does **not** own: what a call prints.
-/

set_option autoImplicit false

namespace Provenance

open World (Timekeeping Call Enduring)

variable {Time : Type}

namespace World

/-- The calls that have been made in a world. -/
def HasCalled (made : List (Call Time)) (current : World Time) : Prop :=
  World.calls current.trace = made

theorem enduring_hasCalled (made : List (Call Time)) : Enduring (HasCalled made) where
  stable := by
    intro current event noCall holds
    have none_called : World.calls [event] = [] := by
      cases event with
      | called call => exact absurd rfl (noCall call)
      | _ => rfl
    change World.calls (current.trace ++ [event]) = made
    rw [calls_append, none_called, List.append_nil]
    exact holds
  timed := fun _ _ holds => holds

end World

namespace Assembly

open Program (Keeps)
open World (HasCalled enduring_hasCalled)

/-- A program that makes one call with a command, or none because it fails severely. -/
def MakesOne {α : Type} (command : List String) (program : Program Time α) : Prop :=
  ∀ (made : List (Call Time)) (current : World Time), HasCalled made current →
    (∃ failure, IsSevere failure ∧ (program.runIn current).1 = .error failure ∧
        HasCalled made (program.runIn current).2) ∨
      ∃ call : Call Time, call.command = command ∧
        HasCalled (made ++ [call]) (program.runIn current).2

namespace MakesOne

variable {α β : Type} {command : List String} {program : Program Time α}

/-- Before the call nothing is called, and what fails there fails severely. -/
theorem after {first : Program Time β} {next : β → Program Time α}
    (quiet : ∀ made, Keeps (HasCalled made) first (fun _ => True) IsSevere)
    (makes : ∀ value, MakesOne command (next value)) : MakesOne command (first >>= next) := by
  intro made current holds
  obtain ⟨holdsNext, -, severe⟩ := quiet made current holds
  rw [Program.runIn_bind]
  cases runs : first.runIn current with
  | mk result middle =>
      rw [runs] at holdsNext severe
      cases result with
      | ok value => exact makes value made middle holdsNext
      | error failure => exact .inl ⟨failure, severe failure rfl, rfl, holdsNext⟩

/-- After the call nothing is called any more. -/
theorem bind {next : α → Program Time β} (makes : MakesOne command program)
    (quiet : ∀ made value, Keeps (HasCalled made) (next value) (fun _ => True) fun _ => True) :
    MakesOne command (program >>= next) := by
  intro made current holds
  rcases makes made current holds with ⟨failure, severe, fails, same⟩ | ⟨call, names, called⟩
  · have runs : program.runIn current = (.error failure, (program.runIn current).2) :=
      Prod.ext fails rfl
    rw [Program.runIn_bind_of_error runs]
    exact .inl ⟨failure, severe, rfl, same⟩
  · refine .inr ⟨call, names, ?_⟩
    rw [Program.runIn_bind]
    cases runs : program.runIn current with
    | mk result middle =>
        rw [runs] at called
        cases result with
        | ok value => exact (quiet _ value middle called).1
        | error failure => exact called

end MakesOne

section Stages

variable [Timekeeping Time]

theorem call_makesOne (client : Git.Client Time) (arguments : List String) (directory : String)
    (limit : Time) : MakesOne (client.command arguments) (client.call arguments directory limit) := by
  intro made current holds
  unfold Git.Client.call
  split
  · exact .inl ⟨_, isSevere_fault _, rfl, holds⟩
  let call : Call Time := ⟨client.command arguments, directory, limit, current.clock⟩
  have enduring := enduring_hasCalled (made ++ [call])
  -- The call is recorded first, and whatever it comes to, nothing else is called.
  have rest : Keeps (HasCalled (made ++ [call]))
      (do
        if ← Program.ofFault (Git.Client.isCutOff (current.script.answer arguments) limit) then
          Git.Client.advance limit
          pure .expired
        else
          Git.Client.advance (current.script.answer arguments).takes
          client.settle (current.script.answer arguments))
      (fun _ => True) IsSevere := by
    refine (Keeps.ofFault isSevere_fault).bind fun isCutOff _ => ?_
    cases isCutOff with
    | true => exact (advance_keeps enduring.timed _).bind fun _ _ => .pure trivial
    | false =>
        exact (advance_keeps enduring.timed _).bind fun _ _ =>
          (settle_keeps client _).weaken (fun _ _ => trivial) fun _ severe => severe
  have recorded : HasCalled (made ++ [call])
      { current with trace := current.trace ++ [.called call] } := by
    change World.calls (current.trace ++ [.called call]) = made ++ [call]
    rw [World.calls_append, show World.calls current.trace = made from holds]
    rfl
  exact .inr ⟨call, rfl, (rest _ recorded).1⟩

/-- **One run of version control is one call**, unless something keeps it from being made. -/
theorem run_makesOne (client : Git.Client Time) (arguments : List String) (directory : String)
    (left : Option Time) :
    MakesOne (client.command arguments) (client.run arguments directory left) :=
  .after (fun _ => .ofFault isSevere_fault) fun limit =>
    .after (fun _ => .ofFault isSevere_fault) fun line =>
      .after (fun made => .log (enduring_hasCalled made).stable _ _ _) fun _ =>
        (call_makesOne client arguments directory limit).bind fun made outcome =>
          (report_keeps client directory ((enduring_hasCalled made).stable.under _) line limit
            outcome).weaken (fun _ _ => trivial) fun _ _ => trivial

variable (service : Service Time) (directory : String) (deadline : Option Time)

theorem Service.call_makesOne (stage : Stage) :
    MakesOne (service.client.command (service.arguments stage))
      (service.call stage directory deadline) := by
  refine .after (fun _ => remaining_keeps deadline) fun left => ?_
  split
  · exact fun made current holds => .inl ⟨_, isSevere_fault _, rfl, holds⟩
  · exact run_makesOne service.client _ directory left

/-- **One question is one call**, unless its outcome ends the assembly. -/
theorem outcomeOf_calls (query : Query) {made : List (Call Time)} {current last : World Time}
    {outcome : Outcome} (holds : HasCalled made current)
    (asks : (outcomeOf (ask service.client service.remote directory deadline) query).runIn current =
      (.ok outcome, last)) :
    (outcome.stop?.isSome ∧ HasCalled made last) ∨
      ∃ call : Call Time,
        call.command = service.client.command (service.arguments (.fact query)) ∧
          HasCalled (made ++ [call]) last := by
  have makes : MakesOne (service.client.command (service.arguments (.fact query)))
      (ask service.client service.remote directory deadline query) := by
    rw [ask_eq]
    exact (service.call_makesOne directory deadline (.fact query)).bind fun made printed =>
      .ofResult (fun _ _ => trivial) fun _ _ => trivial
  rw [outcomeOf_runIn] at asks
  obtain ⟨comes, rfl⟩ := Prod.mk.inj asks
  obtain rfl := Except.ok.inj comes
  rcases makes made current holds with ⟨failure, severe, fails, same⟩ | called
  · refine .inl ⟨?_, same⟩
    rw [fails, stop?_ofResult_error severe.leavesNoGap]
    rfl
  · exact .inr called

end Stages

end Assembly
end Provenance
