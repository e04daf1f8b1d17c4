import Provenance.Proofs.CommandLine.RecordsFirst
import Provenance.Proofs.CommandLine.Words

/-!
Contract: a quiet run is the same run without its data.

Owns:
- `World.unprinted`, what happens in a run apart from what is printed, and that standard error
  follows from it;
- `conclude_speaks` and `obey_hushed`: the end of a command, and what a request does, say the same
  whether or not data is shown;
- `quiet_hides_data_alone`, for whole command lines.

Does **not** own: where a switch can be put.

## Why the failures have to be listed

The object of a problem holds its exit code, and a code with too many digits has no text.  A
run that shows data would break off there and a quiet one would not.  Commands that make
records fail with listed codes alone.
-/

set_option autoImplicit false

namespace Provenance

/-! ## What is not printed -/

namespace World

variable {Time : Type}

/-- What happens apart from what is printed. -/
def unprinted (trace : List (Event Time)) : List (Event Time) :=
  trace.filter fun
    | .printed _ => false
    | _ => true

theorem unprinted_append (first second : List (Event Time)) :
    unprinted (first ++ second) = unprinted first ++ unprinted second :=
  List.filter_append ..

@[simp] theorem unprinted_printing (lines : List String) (world : World Time) :
    unprinted (world.printing lines).trace = unprinted world.trace := by
  have noneLeft : unprinted (lines.map fun line => (Event.printed (line ++ "\n") : Event Time)) = [] :=
    List.filter_eq_nil_iff.mpr fun event member => by
      obtain ⟨line, -, rfl⟩ := List.mem_map.mp member
      exact Bool.false_ne_true
  rw [printing, unprinted_append, noneLeft, List.append_nil]

end World

/-- **Standard error does not depend on what is printed.** -/
theorem Journal.Display.output_unprinted {Time : Type} (display : Journal.Display)
    (trace : List (World.Event Time)) :
    display.output (World.unprinted trace) = display.output trace := by
  induction trace generalizing display with
  | nil => rfl
  | cons event rest inductionHypothesis =>
      cases event with
      | printed text =>
          exact (inductionHypothesis display).trans String.empty_append.symm
      | _ => exact congrArg (_ ++ ·) (inductionHypothesis _)

theorem Journal.errorOutput_of_unprinted {Time : Type} {trace other : List (World.Event Time)}
    (same : World.unprinted trace = World.unprinted other) :
    errorOutput trace = errorOutput other := by
  rw [errorOutput, ← Display.output_unprinted, same, Display.output_unprinted, errorOutput]

namespace CommandLine

open Data (Value)
open Program (Agree)
open World (unprinted)

/-! ## Ends that say the same -/

/-- A quiet run beside another one: it ends in the same way and says the same. -/
structure SaysTheSame (quiet loud : Except Failure Int × World Value) : Prop where
  ending : quiet.1 = loud.1
  said : unprinted quiet.2.trace = unprinted loud.2.trace

theorem SaysTheSame.refl (run : Except Failure Int × World Value) : SaysTheSame run run := ⟨rfl, rfl⟩

/-- A result that can be shown in every format, or a failure whose exit code is listed. -/
def IsOrderly (result : Except Failure Result) : Prop :=
  Agree Result.Alike result result

theorem unprinted_complained (progress : Progress) (failure : Failure) (lines : List String)
    (world : World Value) :
    unprinted (complained progress failure (world.printing lines)).trace =
      unprinted (complained progress failure world).trace := by
  unfold complained
  split
  · refine (World.unprinted_append _ _).trans (.trans ?_ (World.unprinted_append _ _).symm)
    rw [World.unprinted_printing]
  · exact World.unprinted_printing lines world

/-- **The end of a command says the same whether or not it shows data**, and a quiet one shows none. -/
theorem conclude_speaks (progress : Progress) (format : Output.Format) {command : Action Result}
    {world : World Value} (orderly : IsOrderly (command.runIn world).1) :
    ∃ ending said, ∀ quiet,
      ((conclude progress quiet (.text format.name) command).runIn world).1 = ending ∧
        unprinted ((conclude progress quiet (.text format.name) command).runIn world).2.trace = said ∧
        (quiet = true →
          World.output ((conclude progress quiet (.text format.name) command).runIn world).2.trace =
            World.output (command.runIn world).2.trace) := by
  cases runs : command.runIn world with
  | mk result middle =>
      rw [runs] at orderly
      cases orderly with
      | @error failure listed =>
          refine ⟨endOf failure, unprinted (complained progress failure middle).trace, fun quiet => ?_⟩
          rw [conclude_of_error progress quiet world (isWritable_of_isListed listed) runs]
          refine ⟨rfl, World.unprinted_printing _ _, ?_⟩
          rintro rfl
          rw [shownLines, if_pos rfl, World.printing_nil, output_complained]
      | @ok result _ same =>
          obtain ⟨_, same⟩ : ∃ other, Result.Alike result other := ⟨_, same⟩
          cases same with
          | done =>
              refine ⟨.ok Failure.ExitCode.success, unprinted middle.trace, fun quiet => ?_⟩
              rw [conclude_of_finish progress quiet world runs rfl]
              exact ⟨rfl, rfl, fun _ => rfl⟩
          | misuse error =>
              refine ⟨.ok Failure.ExitCode.usageError,
                unprinted (middle.after (.reported error.text)).trace, fun quiet => ?_⟩
              rw [conclude_of_finish progress quiet world runs rfl]
              refine ⟨rfl, rfl, fun _ => ?_⟩
              exact (World.output_append _ _).trans String.append_empty
          | @report records _ problem areRecords _ listed =>
              obtain ⟨chunks, written⟩ := IsRecord.exists_chunks areRecords format
              cases problem with
              | none =>
                  refine ⟨.ok Failure.ExitCode.success, unprinted middle.trace, fun quiet => ?_⟩
                  rw [conclude_of_records progress quiet world written runs]
                  refine ⟨rfl, World.unprinted_printing _ _, ?_⟩
                  rintro rfl
                  rw [shownLines, if_pos rfl, World.printing_nil]
              | some problem =>
                  have writable := isWritable_of_isListed (listed problem rfl)
                  refine ⟨endOf (.problem problem),
                    unprinted (complained progress (.problem problem) middle).trace, fun quiet => ?_⟩
                  rw [conclude_of_problem progress quiet world written runs,
                    explain_runIn progress quiet _ writable]
                  refine ⟨rfl, ?_, ?_⟩
                  · rw [World.unprinted_printing, unprinted_complained]
                  · rintro rfl
                    simp only [shownLines, if_true, World.printing_nil]
                    rw [output_complained]

/-! ## Commands that end in order -/

/-- A command that prints a table leaves nothing to be shown. -/
theorem isOrderly_table (directory : String) (strict located : Bool) (progress : Progress)
    (world : World Value) :
    IsOrderly ((describe directory strict located true progress).runIn world).1 := by
  have orderly :=
    (described_alike (Assembly.attuned_silent _) directory progress).silent world
  rw [describe_eq, Program.runIn_bind]
  cases finds : (described directory progress).runIn world with
  | mk result middle =>
      rw [finds] at orderly
      cases result with
      | error failure => exact .error orderly.2.listed
      | ok found =>
          have printable : Printable (Eq : World Value → World Value → Prop) :=
            fun _ same => by rw [same]
          exact (showing_alike printable strict located true found middle middle rfl).2.weaken
            fun _ _ same => same.2

/-- What is asked for when data is shown in a format that is listed. -/
def ChoosesListed (manner : Manner) (world : World Value) : Prop :=
  ∀ value, ((chosenFormat manner.format).runIn world).1 = .ok value →
    ∃ format : Output.Format, value = .text format.name

/-- A listed format that is named is the one that is chosen. -/
theorem choosesListed_of_named {manner : Manner} (format : Output.Format)
    (named : manner.format = some format.name) (world : World Value) : ChoosesListed manner world := by
  intro value chooses
  rw [named] at chooses
  cases runs : (chosenFormat (some format.name)).runIn world with
  | mk result chosen =>
      rw [runs] at chooses
      obtain rfl : result = .ok value := chooses
      exact ⟨format, chosenFormat_named runs⟩

/-- A command that always ends in order says the same whether or not data is shown.  It prints nothing
in a quiet run unless it prints something before its end. -/
theorem produce_hushed {manner : Manner} {command : Progress → Action Result} {world : World Value}
    (listed : ChoosesListed manner world)
    (orderly : ∀ progress world, IsOrderly ((command progress).runIn world).1) :
    SaysTheSame ((produce { manner with quiet := true } command).runIn world)
        ((produce manner command).runIn world) ∧
      ((∀ progress world,
          World.output ((command progress).runIn world).2.trace = World.output world.trace) →
        World.output ((produce { manner with quiet := true } command).runIn world).2.trace =
          World.output world.trace) := by
  have silent := (chosenFormat_alike (World.steady_silent _) manner.format).silent world
  cases chooses : (chosenFormat manner.format).runIn world with
  | mk result chosen =>
      rw [chooses] at silent
      cases result with
      | error failure =>
          have fails (quiet : Bool) : (produce { manner with quiet := quiet } command).runIn world =
              (.error failure, chosen) := Program.runIn_bind_of_error chooses _
          rw [fails true, show produce manner command = produce { manner with quiet := manner.quiet } command
            from rfl, fails manner.quiet]
          exact ⟨.refl _, fun _ => silent.1⟩
      | ok value =>
          obtain ⟨format, rfl⟩ := listed value (by rw [chooses])
          obtain ⟨ending, said, agrees⟩ := conclude_speaks
            (.seenIn (if manner.verbose then some true else none) chosen) format
            (orderly (.seenIn (if manner.verbose then some true else none) chosen) chosen)
          rw [produce_runIn { manner with quiet := true } command chooses,
            produce_runIn manner command chooses]
          obtain ⟨quietEnds, quietSaid, hides⟩ := agrees true
          obtain ⟨ends, said_eq, -⟩ := agrees manner.quiet
          refine ⟨⟨quietEnds.trans ends.symm, quietSaid.trans said_eq.symm⟩, fun silentCommand => ?_⟩
          exact (hides rfl).trans ((silentCommand _ _).trans silent.1)

/-! ## Requests -/

/-- The manner in which a request is to be fulfilled. -/
def Request.manner? : Request → Option Manner
  | .describe _ _ _ _ manner => some manner
  | .normalize _ manner => some manner
  | .pin _ _ _ manner => some manner
  | _ => none

/-- **A request says the same whether or not data is shown**, and where all it makes is records, a quiet
run prints nothing. -/
theorem obey_hushed {request : Request} {world : World Value}
    (listed : ∀ manner, request.manner? = some manner → ChoosesListed manner world) :
    SaysTheSame ((obey request.hushed).runIn world) ((obey request).runIn world) ∧
      ((dataCommand? request).isSome →
        World.output ((obey request.hushed).runIn world).2.trace = World.output world.trace) := by
  have ofData {manner : Manner} {command : Progress → Action Result}
      (data : dataCommand? request = some (manner, command)) (hushed : obey request.hushed =
        produce { manner with quiet := true } command) (isManner : request.manner? = some manner) :
      SaysTheSame ((obey request.hushed).runIn world) ((obey request).runIn world) ∧
        World.output ((obey request.hushed).runIn world).2.trace = World.output world.trace := by
    have orderly := fun progress world =>
      (data_alike (Assembly.attuned_silent _) data progress).silent world
    obtain ⟨same, hides⟩ := produce_hushed (listed manner isManner)
      fun progress world => (orderly progress world).2
    rw [hushed, obey_of_data data]
    exact ⟨same, hides fun progress world => (orderly progress world).1⟩
  cases request with
  | describe directory strict located table manner =>
      cases table with
      | false => exact (ofData rfl rfl rfl).imp_right fun hides _ => hides
      | true =>
          refine ⟨?_, fun isData => by cases isData⟩
          exact (produce_hushed (listed manner rfl)
            fun progress world => isOrderly_table directory strict located progress world).1
  | normalize urls manner => exact (ofData rfl rfl rfl).imp_right fun hides _ => hides
  | pin reference directory asCommand manner =>
      exact (ofData rfl rfl rfl).imp_right fun hides _ => hides
  | _ => exact ⟨.refl _, fun isData => by cases isData⟩

/-! ## Command lines -/

theorem readSwitch_quiet {command : Command} (takes : .quiet ∈ command.switches) {word : String}
    (isQuiet : word = "-q" ∨ word = "--quiet") :
    Words.readSwitch command word = .ok { given := [⟨.quiet, none⟩] } := by
  cases command with
  | describe => rcases isQuiet with rfl | rfl <;> rfl
  | normalize => rcases isQuiet with rfl | rfl <;> rfl
  | pin => rcases isQuiet with rfl | rfl <;> rfl
  | _ => exact absurd takes (by decide)

/-- A command with the quiet switch, at an open place, beside the command without it. -/
theorem runCommand_hushed {command : Command} (takes : .quiet ∈ command.switches)
    {before after : List String} {word : String} (isQuiet : word = "-q" ∨ word = "--quiet")
    (isOpen : Words.isOpen command none before = true) {world : World Value}
    (listed : ∀ request manner,
      Request.read world.files world.cwd command (before ++ after) = .ok request →
        request.manner? = some manner → ChoosesListed manner world) :
    SaysTheSame ((runCommand command (before ++ word :: after)).runIn world)
        ((runCommand command (before ++ after)).runIn world) ∧
      ((∀ request, Request.read world.files world.cwd command (before ++ after) = .ok request →
          (dataCommand? request).isSome) →
        World.output ((runCommand command (before ++ word :: after)).runIn world).2.trace =
          World.output world.trace) := by
  have notEnd : word ≠ "--" := by rcases isQuiet with rfl | rfl <;> decide
  have written : Words.isSwitch word = true := by rcases isQuiet with rfl | rfl <;> decide
  have quiet_eq := Request.read_of_adds world.files world.cwd takes
    (Words.adds_readAfter notEnd written (readSwitch_quiet takes isQuiet) isOpen after)
  cases asks : Request.read world.files world.cwd command (before ++ after) with
  | error error =>
      rw [asks] at quiet_eq
      rw [runCommand_of_error asks, runCommand_of_error quiet_eq]
      exact ⟨.refl _, fun _ => (World.output_append _ _).trans String.append_empty⟩
  | ok request =>
      rw [asks] at quiet_eq
      rw [runCommand_runIn asks, runCommand_runIn quiet_eq]
      obtain ⟨same, hides⟩ := obey_hushed fun manner => listed request manner asks
      exact ⟨same, fun isData => hides (isData request rfl)⟩

/-- **A quiet run is the same run without its data.**

Wherever the quiet switch is put between the words of a command that takes it, except behind a switch
that waits for a value and behind the end of the switches, the exit code and standard error are what
they are without it, as long as the format that is chosen is one of those that are listed.  Standard
output is empty, unless a help page or a table is asked for: these are printed all the same. -/
theorem quiet_hides_data_alone (world : World Value) {words rest : List String} {switches : Words}
    {chosen : Command} (leads : Entry.read .root words = .ok (.command switches chosen rest))
    (takes : .quiet ∈ chosen.switches)
    (listed : ∀ request manner, Request.read world.files world.cwd chosen rest = .ok request →
      request.manner? = some manner → ChoosesListed manner world) :
    ∃ front, words = front ++ rest ∧
      ∀ (before after : List String) (word : String), rest = before ++ after →
        Words.isOpen chosen none before = true → word = "-q" ∨ word = "--quiet" →
          let quiet := (outcomeIn world (front ++ (before ++ word :: after))).1
          let loud := (outcomeIn world words).1
          quiet.exitCode = loud.exitCode ∧ quiet.errors = loud.errors ∧
            quiet.uncaught = loud.uncaught ∧
            ((∀ request, Request.read world.files world.cwd chosen rest = .ok request →
              (dataCommand? request).isSome) → quiet.output = "") := by
  obtain ⟨front, rfl, replaced⟩ := Entry.exists_front (by decide) leads
  refine ⟨front, rfl, ?_⟩
  rintro before after word rfl isOpen isQuiet
  dsimp only
  have other : chosen ≠ .settings := by rintro rfl; exact absurd takes (by decide)
  obtain ⟨quietSwitches, given_eq, quietLeads⟩ := replaced (before ++ word :: after)
  have debug_eq : quietSwitches.has .debug = switches.has .debug := by
    rw [Words.has, Words.has, given_eq]
  have silent := (prepare_alike (World.steady_silent _) (switches.has .debug)).silent
    (unsaid world)
  have sameView := sameView_prepare (switches.has .debug) (unsaid world)
  rw [outcomeIn_fst, outcomeIn_fst, run_eq leads other, run_eq quietLeads other, debug_eq]
  cases prepares : (prepare (switches.has .debug)).runIn (unsaid world) with
  | mk result prepared =>
      rw [prepares] at silent sameView
      cases result with
      | error failure =>
          rw [Program.runIn_bind_of_error prepares, Program.runIn_bind_of_error prepares]
          exact ⟨rfl, rfl, rfl, fun _ => silent.1⟩
      | ok _ =>
          rw [Program.runIn_bind_of_ok prepares, Program.runIn_bind_of_ok prepares]
          have sameView := (sameView_unsaid world).trans sameView
          have listedThen : ∀ request manner,
              Request.read prepared.files prepared.cwd chosen (before ++ after) = .ok request →
                request.manner? = some manner → ChoosesListed manner prepared := by
            intro request manner asks isManner value chooses
            rw [← sameView.files, ← sameView.cwd] at asks
            rw [← chosenFormat_of_sameView sameView] at chooses
            exact listed request manner asks isManner value chooses
          obtain ⟨same, hides⟩ := runCommand_hushed takes isQuiet isOpen listedThen
          rw [← sameView.files, ← sameView.cwd] at hides
          refine ⟨congrArg codeOf same.ending, Journal.errorOutput_of_unprinted same.said,
            congrArg uncaught? same.ending, fun isData => ?_⟩
          exact (hides isData).trans silent.1

/-- A format is named, and the switch is put behind it. -/
theorem quiet_hides_data_alone_named :
    let quiet := (outcomeIn (worldAnswering []) ["meta", "-f", "csv", "-q", "."]).1
    let loud := (outcomeIn (worldAnswering []) ["meta", "-f", "csv", "."]).1
    quiet.exitCode = loud.exitCode ∧ quiet.errors = loud.errors ∧ quiet.uncaught = loud.uncaught ∧
      quiet.output = "" := by
  have asks : Request.read (worldAnswering []).files (worldAnswering []).cwd .describe
      ["-f", "csv", "."] = .ok (.describe "." false false false { format := some "csv" }) := rfl
  have leads : Entry.read .root ["meta", "-f", "csv", "."] =
      .ok (.command ⟨[], ["meta", "-f", "csv", "."]⟩ .describe ["-f", "csv", "."]) := rfl
  obtain ⟨front, words_eq, agrees⟩ := quiet_hides_data_alone (worldAnswering []) leads (by decide)
    fun request manner reads isManner => by
      rw [asks] at reads
      obtain rfl := Except.ok.inj reads
      obtain rfl := Option.some.inj isManner
      exact choosesListed_of_named .csv rfl _
  obtain rfl : front = ["meta"] := List.append_cancel_right words_eq.symm
  have agrees := agrees ["-f", "csv"] ["."] "-q" rfl rfl (.inl rfl)
  rw [show ["meta"] ++ (["-f", "csv"] ++ "-q" :: ["."]) = ["meta", "-f", "csv", "-q", "."] from rfl]
    at agrees
  obtain ⟨code, errors, uncaught, hides⟩ := agrees
  refine ⟨code, errors, uncaught, hides fun request reads => ?_⟩
  rw [asks] at reads
  obtain rfl := Except.ok.inj reads
  rfl

/-- A table is printed in a quiet run. -/
theorem quiet_table_printed :
    Request.read (worldAnswering []).files (worldAnswering []).cwd .describe
        ["--table", "-q", "-f", "jsonl"] =
        .ok (.describe "." false false true { quiet := true, format := some "jsonl" }) ∧
      (outcomeIn (worldAnswering []) ["meta", "--table", "-q", "-f", "jsonl"]).1.exitCode = 0 ∧
      (outcomeIn (worldAnswering []) ["meta", "--table", "-q", "-f", "jsonl"]).1.output ≠ "" :=
  ⟨rfl, by decide +kernel, by decide +kernel⟩

end CommandLine
end Provenance
