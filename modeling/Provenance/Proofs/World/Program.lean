import Provenance.World.Basic

/-!
Contract: how a program runs, and what it leaves behind.

Owns:
- the equations of `Program.runIn`, one for each way of building a program;
- `World.Follows`, a world that another one has become while some calls were made;
- `Program.OnlyCalls`, the programs that leave such worlds behind.

Does **not** own: which calls a program makes.

## Why the trace is read as calls

A call is recorded between log records, and how many of these there are depends on
the answers.  What laws speak about is which calls were made, in which order, so
`Follows` keeps the calls of a trace and forgets the rest.
-/

set_option autoImplicit false

namespace Provenance

open World (Call Event LogRecord)

variable {Time : Type}

/-! ## Running a program -/

namespace Program

variable {α β : Type}

@[simp] theorem runIn_pure (value : α) (world : World Time) :
    (pure value : Program Time α).runIn world = (.ok value, world) := rfl

theorem runIn_bind (program : Program Time α) (next : α → Program Time β) (world : World Time) :
    (program >>= next).runIn world =
      match program.runIn world with
      | (.ok value, after) => (next value).runIn after
      | (.error failure, after) => (.error failure, after) := by
  change (ExceptT.bindCont next (program world).1) (program world).2 = _
  unfold runIn
  cases program world with
  | mk result after => cases result <;> rfl

theorem runIn_bind_of_ok {program : Program Time α} {world after : World Time} {value : α}
    (returns : program.runIn world = (.ok value, after)) (next : α → Program Time β) :
    (program >>= next).runIn world = (next value).runIn after := by
  rw [runIn_bind, returns]

theorem runIn_bind_of_error {program : Program Time α} {world after : World Time}
    {failure : Failure} (fails : program.runIn world = (.error failure, after))
    (next : α → Program Time β) :
    (program >>= next).runIn world = (.error failure, after) := by
  rw [runIn_bind, fails]

/-- Reading a result changes nothing but the result. -/
theorem runIn_bind_read {next : α → Program Time β} {read : α → Except Failure β}
    (reads : ∀ value world, (next value).runIn world = (read value, world))
    (program : Program Time α) (world : World Time) :
    (program >>= next).runIn world =
      ((program.runIn world).1.bind read, (program.runIn world).2) := by
  rw [runIn_bind]
  cases program.runIn world with
  | mk result after =>
      cases result with
      | error failure => rfl
      | ok value => exact reads value after

theorem runIn_map (change : α → β) (program : Program Time α) (world : World Time) :
    (change <$> program).runIn world =
      ((program.runIn world).1.map change, (program.runIn world).2) := by
  rw [map_eq_pure_bind, runIn_bind]
  cases program.runIn world with
  | mk result after => cases result <;> rfl

@[simp] theorem runIn_fail (failure : Failure) (world : World Time) :
    (fail failure : Program Time α).runIn world = (.error failure, world) := rfl

@[simp] theorem runIn_failWith (kind : Failure.GitProblem) (detail : String)
    (world : World Time) :
    (failWith kind detail : Program Time α).runIn world =
      (.error (Failure.git kind detail), world) := rfl

@[simp] theorem runIn_ofFault_ok (value : α) (world : World Time) :
    (ofFault (.ok value) : Program Time α).runIn world = (.ok value, world) := rfl

@[simp] theorem runIn_ofFault_error (fault : Failure.Fault) (world : World Time) :
    (ofFault (.error fault) : Program Time α).runIn world = (.error (.fault fault), world) := rfl

@[simp] theorem runIn_ofResult (result : Except Failure α) (world : World Time) :
    (ofResult result).runIn world = (result, world) := by
  cases result <;> rfl

theorem map_ofResult (change : α → β) (result : Except Failure α) :
    change <$> (ofResult result : Program Time α) = ofResult (result.map change) := by
  cases result <;> rfl

@[simp] theorem runIn_world (current : World Time) :
    (world : Program Time (World Time)).runIn current = (.ok current, current) := rfl

@[simp] theorem runIn_change (step : World Time → World Time) (world : World Time) :
    (change step).runIn world = (.ok (), step world) := rfl

@[simp] theorem runIn_record (event : Event Time) (world : World Time) :
    (record event).runIn world =
      (.ok (), { world with trace := world.trace ++ [event] }) := rfl

@[simp] theorem runIn_log (level : World.Level) (logger message : String) (world : World Time) :
    (log level logger message).runIn world =
      (.ok (), { world with trace := world.trace ++ [.logged ⟨level, logger, message⟩] }) := rfl

@[simp] theorem runIn_attempt (program : Program Time α) (world : World Time) :
    (attempt program).runIn world = (.ok (program.runIn world).1, (program.runIn world).2) := rfl

/-- Where two programs in a row return, the first one has returned. -/
theorem exists_of_bind_eq_ok {program : Program Time α} {next : α → Program Time β} {value : β}
    {world after : World Time} (runs : (program >>= next).runIn world = (.ok value, after)) :
    ∃ found middle, program.runIn world = (.ok found, middle) ∧
      (next found).runIn middle = (.ok value, after) := by
  rw [runIn_bind] at runs
  cases first : program.runIn world with
  | mk result middle =>
      rw [first] at runs
      cases result with
      | ok found => exact ⟨found, middle, rfl, runs⟩
      | error failure => cases runs

theorem eq_ok_of_ofFault {result : Except Failure.Fault β} {value : β}
    {world after : World Time}
    (runs : (ofFault result).runIn world = (.ok value, after)) :
    result = .ok value ∧ world = after := by
  cases result with
  | ok found =>
      obtain ⟨same, rfl⟩ := Prod.mk.inj runs
      exact ⟨congrArg _ (Except.ok.inj same), rfl⟩
  | error fault => cases runs

theorem exists_of_toOption {program : Program Time α} {world : World Time}
    (returns : (program.runIn world).1.toOption.isSome) :
    ∃ value after, program.runIn world = (.ok value, after) ∧
      (program.runIn world).1.toOption = some value := by
  cases runs : program.runIn world with
  | mk result after =>
      rw [runs] at returns
      cases result with
      | ok value => exact ⟨value, after, rfl, rfl⟩
      | error failure => cases returns

end Program

/-! ## What a program leaves behind -/

namespace World

@[simp] theorem calls_append (first second : List (Event Time)) :
    calls (first ++ second) = calls first ++ calls second := by
  simp [calls]

/-- `after` is what `before` has become while the calls `made` were made: the clock may have run
on and the log may have grown, and nothing else has changed. -/
structure Follows (before after : World Time) (made : List (Call Time)) : Prop where
  files : after.files = before.files
  cwd : after.cwd = before.cwd
  environment : after.environment = before.environment
  script : after.script = before.script
  calls : World.calls after.trace = World.calls before.trace ++ made

namespace Follows

variable {before middle after : World Time} {made others : List (Call Time)}

theorem refl (world : World Time) : world.Follows world [] where
  files := rfl
  cwd := rfl
  environment := rfl
  script := rfl
  calls := by simp

theorem trans (first : before.Follows middle made) (second : middle.Follows after others) :
    before.Follows after (made ++ others) where
  files := second.files.trans first.files
  cwd := second.cwd.trans first.cwd
  environment := second.environment.trans first.environment
  script := second.script.trans first.script
  calls := by rw [second.calls, first.calls, List.append_assoc]

theorem logged (world : World Time) (record : LogRecord) :
    world.Follows { world with trace := world.trace ++ [.logged record] } [] where
  files := rfl
  cwd := rfl
  environment := rfl
  script := rfl
  calls := by simp [World.calls]

theorem said (world : World Time) (records : List LogRecord) :
    world.Follows { world with trace := world.trace ++ records.map .logged } [] where
  files := rfl
  cwd := rfl
  environment := rfl
  script := rfl
  calls := by simp [World.calls, List.filterMap_map]

theorem called (world : World Time) (call : Call Time) :
    world.Follows { world with trace := world.trace ++ [.called call] } [call] where
  files := rfl
  cwd := rfl
  environment := rfl
  script := rfl
  calls := by simp [World.calls]

theorem withClock (world : World Time) (clock : Time) :
    world.Follows { world with clock := clock } [] where
  files := rfl
  cwd := rfl
  environment := rfl
  script := rfl
  calls := by simp

end Follows
end World

/-! ## Programs that leave the rest alone -/

namespace Program

variable {α β : Type}

/-- A program that makes calls at most: whatever it comes to, the world goes on from what it was. -/
def OnlyCalls (program : Program Time α) : Prop :=
  ∀ current : World Time, ∃ made, current.Follows (program.runIn current).2 made

theorem OnlyCalls.ofResult (result : Except Failure α) :
    OnlyCalls (Program.ofResult result : Program Time α) := by
  intro current
  rw [runIn_ofResult]
  exact ⟨[], .refl current⟩

theorem OnlyCalls.bind {program : Program Time α} {next : α → Program Time β}
    (first : OnlyCalls program) (rest : ∀ value, OnlyCalls (next value)) :
    OnlyCalls (program >>= next) := by
  intro current
  obtain ⟨made, follows⟩ := first current
  rw [runIn_bind]
  cases runs : program.runIn current with
  | mk result after =>
      rw [runs] at follows
      cases result with
      | error failure => exact ⟨made, follows⟩
      | ok value =>
          obtain ⟨others, followsRest⟩ := rest value after
          exact ⟨made ++ others, follows.trans followsRest⟩

end Program
end Provenance
