import Provenance.CommandLine.Outcome
import Provenance.Proofs.CommandLine.Alike
import Provenance.Proofs.CommandLine.Strict

/-!
Contract: the course of a run, from its words to the end of its command.

Owns:
- `World.SameView`, worlds in which the same settings hold;
- `run_eq` and `runCommand_runIn`, what words lead to, and `outcomeIn_fst`, what a run leaves behind;
- `Request.cases_read`, what words ask for: the help page, or what their command takes from them;
- `produce_runIn`, a command that makes records with the format and the progress it is given;
- `dataCommand?`, the requests that make records, and `data_alike`, the one law of their commands.

Does **not** own: what a command prints.
-/

set_option autoImplicit false

namespace Provenance

open Program (Agree Alike)

/-! ## Worlds that look the same -/

namespace World

variable {Time : Type}

/-- Worlds with the same files, variables and terminal. -/
structure SameView (left right : World Time) : Prop where
  files : left.files = right.files
  cwd : left.cwd = right.cwd
  environment : left.environment = right.environment
  isTerminal : left.isTerminal = right.isTerminal

theorem steady_sameView : Steady (SameView : World Time → World Time → Prop) where
  files := fun same => same.files
  cwd := fun same => same.cwd
  environment := fun same => same.environment
  isTerminal := fun same => same.isTerminal
  said := fun _ _ same => ⟨same.files, same.cwd, same.environment, same.isTerminal⟩

theorem stable_sameView (world : World Time) : Stable (SameView world) :=
  fun _ _ _ same => ⟨same.files, same.cwd, same.environment, same.isTerminal⟩

theorem SameView.refl (world : World Time) : SameView world world := ⟨rfl, rfl, rfl, rfl⟩

theorem SameView.trans {first second third : World Time} (left : SameView first second)
    (right : SameView second third) : SameView first third :=
  ⟨left.files.trans right.files, left.cwd.trans right.cwd,
    left.environment.trans right.environment, left.isTerminal.trans right.isTerminal⟩

end World

open World (SameView)

/-- The progress of a run that is said to speak or is not said anything. -/
def Progress.seenIn {Time : Type} (isEnabled : Option Bool) (world : World Time) : Progress where
  isEnabled := (isEnabled.or (wanted? world.environment)).getD world.isTerminal
  hasColours := world.isTerminal && (world.environment.get? "NO_COLOR").isNone

theorem Progress.current_runIn {Time : Type} (isEnabled : Option Bool) (world : World Time) :
    (current none isEnabled).runIn world = (.ok (seenIn isEnabled world), world) := by
  cases isEnabled with
  | some choice => rfl
  | none => rfl

namespace CommandLine

open Assembly (Attuned)
open Data (Value)

variable {world : World Value}

/-! ## From words to a command -/

theorem run_eq {words rest : List String} {switches : Words} {chosen : Command}
    (leads : Entry.read .root words = .ok (.command switches chosen rest))
    (other : chosen ≠ .settings) :
    run words = prepare (switches.has .debug) >>= fun _ => runCommand chosen rest := by
  unfold run enter
  rw [leads]
  dsimp only
  rw [if_neg other]

theorem runCommand_runIn {command : Command} {rest : List String} {request : Request}
    (asks : Request.read world.files world.cwd command rest = .ok request) :
    (runCommand command rest).runIn world = (obey request).runIn world := by
  unfold runCommand
  rw [Program.runIn_bind_of_ok (Program.runIn_world world), asks]

theorem runCommand_of_error {command : Command} {rest : List String} {error : UsageError}
    (refused : Request.read world.files world.cwd command rest = .error error) :
    (runCommand command rest).runIn world =
      (.ok Failure.ExitCode.usageError, world.after (.reported error.text)) := by
  unfold runCommand
  rw [Program.runIn_bind_of_ok (Program.runIn_world world), refused]
  rfl

/-- What words ask for is the help page, or what their command takes from them. -/
theorem Request.cases_read {files : World.Files} {cwd : World.Place} {command : Command}
    {rest : List String} {request : Request} (asks : read files cwd command rest = .ok request) :
    request = .help command ∨
      ∃ taken, Words.read command rest = .ok taken ∧ ofWords files cwd command taken = .ok request := by
  obtain ⟨taken, reads, asks⟩ := Settings.exists_of_bind_eq_ok asks
  split at asks
  · exact .inl (Except.ok.inj asks).symm
  · obtain ⟨_, -, asks⟩ := Settings.exists_of_bind_eq_ok asks
    exact .inr ⟨taken, reads, asks⟩

/-- Setting up the log leaves the same view. -/
theorem sameView_prepare (debug : Bool) (world : World Value) :
    SameView world ((prepare debug).runIn world).2 :=
  (prepare_keeps (World.stable_sameView world) debug world (.refl world)).1

/-! ## From a run to its outcome -/

/-- The exit code of a run; a failure that nothing has dealt with is a general error. -/
def codeOf : Except Failure Int → Int
  | .ok code => code
  | .error _ => Failure.ExitCode.generalError

/-- The failure that nothing in a run has dealt with. -/
def uncaught? : Except Failure Int → Option Failure
  | .ok _ => none
  | .error failure => some failure

/-- The world in which a run begins: its trace is its own. -/
def unsaid (world : World Value) : World Value := { world with trace := [] }

theorem sameView_unsaid (world : World Value) : SameView world (unsaid world) :=
  ⟨rfl, rfl, rfl, rfl⟩

theorem outcomeIn_fst (world : World Value) (words : List String) :
    (outcomeIn world words).1 =
      {
        exitCode := codeOf ((run words).runIn (unsaid world)).1
        output := World.output ((run words).runIn (unsaid world)).2.trace
        errors := Journal.errorOutput ((run words).runIn (unsaid world)).2.trace
        uncaught := uncaught? ((run words).runIn (unsaid world)).1
      } := by
  unfold outcomeIn unsaid
  cases (run words).runIn { world with trace := [] } with
  | mk result after => cases result <;> rfl

/-- A run whose words ask for something does it once the log is set up. -/
theorem run_runIn {words rest : List String} {switches : Words} {chosen : Command}
    {request : Request} {prepared : World Value}
    (leads : Entry.read .root words = .ok (.command switches chosen rest))
    (other : chosen ≠ .settings)
    (asks : Request.read world.files world.cwd chosen rest = .ok request)
    (prepares : (prepare (switches.has .debug)).runIn (unsaid world) = (.ok (), prepared)) :
    (run words).runIn (unsaid world) = (obey request).runIn prepared := by
  have sameView := sameView_prepare (switches.has .debug) (unsaid world)
  rw [prepares] at sameView
  rw [run_eq leads other, Program.runIn_bind_of_ok prepares]
  refine runCommand_runIn ?_
  rw [← sameView.files, ← sameView.cwd]
  exact asks

/-! ## From a command to its end -/

/-- Which format is named has no part in what is said of the settings. -/
theorem chosenFormat_world (named : Option String) (world : World Value) :
    ((chosenFormat named).runIn world).2 = (Settings.load.runIn world).2 := by
  have unchanged {program : Action Value} {after : World Value}
      (keeps : Program.Keeps (fun current => current = after) program (fun _ => True) fun _ => True) :
      (program.runIn after).2 = after := (keeps after rfl).1
  unfold chosenFormat
  rw [Program.runIn_bind]
  cases Settings.load.runIn world with
  | mk result after =>
      cases result with
      | error failure => rfl
      | ok settings =>
          refine unchanged ?_
          refine (Program.Keeps.ofFault fun _ => trivial).bind fun part _ =>
            (Program.Keeps.ofFault fun _ => trivial).bind fun default _ => ?_
          cases named with
          | some name => exact .pure trivial
          | none => exact Program.Keeps.world.bind fun _ _ => .ofFault fun _ => trivial

/-- A format that is named is the one that is chosen, if any is. -/
theorem chosenFormat_named {name : String} {format : Value} {chosen : World Value}
    (chooses : (chosenFormat (some name)).runIn world = (.ok format, chosen)) :
    format = .text name := by
  obtain ⟨_, _, -, chooses⟩ := Program.exists_of_bind_eq_ok chooses
  obtain ⟨_, _, -, chooses⟩ := Program.exists_of_bind_eq_ok chooses
  obtain ⟨_, _, -, chooses⟩ := Program.exists_of_bind_eq_ok chooses
  exact (Except.ok.inj (congrArg Prod.fst chooses)).symm

/-- The format is chosen alike wherever the same is seen. -/
theorem chosenFormat_of_sameView {left right : World Value} (same : SameView left right)
    (named : Option String) :
    ((chosenFormat named).runIn left).1 = ((chosenFormat named).runIn right).1 :=
  ((chosenFormat_alike World.steady_sameView named) left right same).2.eq

theorem produce_runIn (manner : Manner) (command : Progress → Action Result) {format : Value}
    {chosen : World Value}
    (chooses : (chosenFormat manner.format).runIn world = (.ok format, chosen)) :
    (produce manner command).runIn world =
      (conclude (.seenIn (if manner.verbose then some true else none) chosen) manner.quiet format
        (command (.seenIn (if manner.verbose then some true else none) chosen))).runIn chosen := by
  unfold produce
  rw [Program.runIn_bind_of_ok chooses, Program.runIn_bind_of_ok (Progress.current_runIn _ chosen)]

/-! ## Requests that make records -/

/-- The manner and the command of a request that makes records. -/
def dataCommand? : Request → Option (Manner × (Progress → Action Result))
  | .describe directory strict located false manner =>
    some (manner, describe directory strict located false)
  | .normalize urls manner => some (manner, fun _ => normalize urls)
  | .pin reference directory asCommand manner => some (manner, pin reference directory asCommand)
  | _ => none

theorem obey_of_data {request : Request} {manner : Manner} {command : Progress → Action Result}
    (data : dataCommand? request = some (manner, command)) : obey request = produce manner command := by
  unfold dataCommand? at data
  split at data
  all_goals cases data
  all_goals rfl

/-- **Commands that make records run alike where the remotes lead to the same place.**  Their results
have the same problem, and records that can be printed in every format. -/
theorem data_alike {related : World Value → World Value → Prop} (attuned : Attuned related)
    {request : Request} {manner : Manner} {command : Progress → Action Result}
    (data : dataCommand? request = some (manner, command)) (progress : Progress) :
    Alike related Result.Alike (command progress) (command progress) := by
  unfold dataCommand? at data
  split at data
  · cases data
    exact describe_alike attuned _ _ _ progress
  · cases data
    exact (normalize_alike _).weaken fun _ _ same => same.2
  · cases data
    exact (pin_alike attuned _ _ _ progress).weaken fun _ _ same => same.2
  · cases data

/-! ## Runs that are alike -/

variable {related : World Value → World Value → Prop}

theorem showHelp_alike (printable : Printable related) (command : Command) :
    Alike related Eq (showHelp command) (showHelp command) :=
  Alike.bindSame (.record fun _ _ => printable (helpText command)) fun _ => .pure rfl

/-- A run is alike where all that its command can be asked for is done alike. -/
theorem Settled.run_alike (settled : Settled related) {words rest : List String} {switches : Words}
    {chosen : Command} (leads : Entry.read .root words = .ok (.command switches chosen rest))
    (other : chosen ≠ .settings)
    (obeys : ∀ files cwd request, Request.read files cwd chosen rest = .ok request →
      Alike related Eq (obey request) (obey request)) :
    Alike related Eq (run words) (run words) := by
  rw [run_eq leads other]
  refine (settled.prepare_alike _).bindSame fun _ => .look fun left right kept => ?_
  rw [settled.files kept, settled.cwd kept]
  cases asks : Request.read right.files right.cwd chosen rest with
  | error error => exact reportMisuse_alike settled.toEven error
  | ok request => exact obeys right.files right.cwd request asks

theorem run_alike (steady : World.Steady related) {words rest : List String} {switches : Words}
    {chosen : Command} (leads : Entry.read .root words = .ok (.command switches chosen rest))
    (other : chosen ≠ .settings)
    (obeys : ∀ files cwd request, Request.read files cwd chosen rest = .ok request →
      Alike related Eq (obey request) (obey request)) :
    Alike related Eq (run words) (run words) :=
  (settled_of_steady steady).run_alike leads other obeys

/-- Runs that are alike leave the same outcome behind, if related worlds have the same trace. -/
theorem outcomeIn_of_alike {words : List String}
    (alike : Alike related Eq (run words) (run words))
    (traced : ∀ {left right}, related left right → left.trace = right.trace)
    {left right : World Value} (kept : related (unsaid left) (unsaid right)) :
    (outcomeIn left words).1 = (outcomeIn right words).1 := by
  obtain ⟨keptAfter, agree⟩ := alike _ _ kept
  rw [outcomeIn_fst, outcomeIn_fst, agree.eq, traced keptAfter]

end CommandLine
end Provenance
