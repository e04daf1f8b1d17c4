import Provenance.Proofs.CommandLine.Course

/-!
Contract: records that were made before a problem are printed before it.

Owns:
- `Describes`, what an object says of a problem;
- `EndsWith`, how a run ends that has printed some lines, for each way in which a command ends;
- `EndsAfter`, how a run ends that has made some records and perhaps a problem;
- `records_before_problem`: no format loses a record, and none has a say in how a run ends.

Does **not** own: which records a command makes.
-/

set_option autoImplicit false

namespace Provenance.CommandLine

open Data (Value)
open Failure (Problem)

/-! ## What is said of a problem -/

/-- What an object says of a problem: the message, the name of the class, the exit code, and the
missing fields of a problem that has such. -/
structure Describes (object : Value) (problem : Problem) : Prop where
  isDict : object.kind = .dict
  error : object.entry? "error" = some (.text problem.message)
  type : object.entry? "type" = some (.text problem.name)
  exitCode : object.entry? "exit_code" = some (.int problem.exitCode)
  missing : object.entry? "missing" = problem.missing?.map Value.texts

theorem describes_problemObject (problem : Problem) : Describes (problemObject problem) problem := by
  unfold problemObject
  cases missing : problem.missing? with
  | none =>
      refine ⟨rfl, rfl, rfl, rfl, ?_⟩
      rw [missing]
      rfl
  | some fields =>
      refine ⟨rfl, rfl, rfl, rfl, ?_⟩
      rw [missing]
      rfl

theorem isLineOf_problemObject [Text.DigitLimit] {problem : Problem}
    (writable : Text.isTooLong problem.exitCode = false) :
    Output.IsLineOf (lineOf (problemObject problem)) (problemObject problem) :=
  Output.isLineOf_draft (isPlain_problemObject problem)
    ((isTooLong_problemObject problem).trans writable)

/-! ## One run -/

section Runs

variable {Time : Type} [limit : Text.DigitLimit]

/-- How a run ends that has printed the chunks of its records: well, or with the problem that is behind
them.  A problem puts one object on a line and gives the exit code. -/
def EndsAfter (chunks : List String) (problem : Option Problem) (before : World Time)
    (run : Except Failure Int × World Time) : Prop :=
  match problem with
  | none =>
    run.1 = .ok Failure.ExitCode.success ∧
      World.output run.2.trace = World.output before.trace ++ linesText chunks
  | some problem =>
    ∃ line object, Output.IsLineOf line object ∧ Describes object problem ∧
      run.1 = .ok problem.exitCode ∧
      World.output run.2.trace = World.output before.trace ++ linesText (chunks ++ [line])

omit limit in
/-- How a run ends that has printed some lines. -/
def EndsWith (lines : List String) (ending : Except Failure Int) (before : World Time)
    (run : Except Failure Int × World Time) : Prop :=
  run.1 = ending ∧ World.output run.2.trace = World.output before.trace ++ linesText lines

/-- How a run ends whose format has made so much of the records of its command: with what is behind the
records, or with the fault that has stopped the format. -/
def EndsAfterTexts (yielded : Output.Yielded) (problem : Option Problem) (before : World Time)
    (run : Except Failure Int × World Time) : Prop :=
  match yielded.stopped with
  | none => EndsAfter yielded.texts problem before run
  | some fault =>
    EndsWith (yielded.texts ++ (errorObject? (.fault fault)).toList.map lineOf)
      (endOf (.fault fault)) before run

theorem output_complained (progress : Progress) (failure : Failure) (world : World Time) :
    World.output (complained progress failure world).trace = World.output world.trace := by
  unfold complained
  split
  · exact (World.output_append _ _).trans String.append_empty
  · rfl

variable {format : Output.Format} {records : List Value} {chunks : List String}
  {command : Program Time Result} {world middle : World Time} (progress : Progress)

/-- What a failure is explained with follows what was printed before it. -/
theorem endsWith_explain {failure : Failure} (writable : IsWritable failure) (lines : List String)
    (before : World Time) :
    EndsWith (lines ++ (errorObject? failure).toList.map lineOf) (endOf failure) before
      ((explain progress false failure).runIn (before.printing lines)) := by
  rw [explain_runIn progress false _ writable]
  refine ⟨rfl, ?_⟩
  rw [World.output_printing, output_complained, World.output_printing, linesText_append,
    String.append_assoc]
  rfl

/-- A command that fails has nothing printed but what went wrong. -/
theorem endsWith_of_error (shape : Value) {failure : Failure} (writable : IsWritable failure)
    (fails : command.runIn world = (.error failure, middle)) :
    EndsWith ((errorObject? failure).toList.map lineOf) (endOf failure) middle
      ((conclude progress false shape command).runIn world) := by
  rw [conclude_of_error progress false world writable fails]
  refine ⟨rfl, ?_⟩
  rw [World.output_printing, output_complained]
  rfl

/-- A command without a problem has its records printed. -/
theorem endsWith_of_records (written : format.chunks records none = .ok chunks)
    (returns : command.runIn world = (.ok (.report (.of records none)), middle)) :
    EndsWith chunks (.ok Failure.ExitCode.success) middle
      ((conclude progress false (.text format.name) command).runIn world) := by
  rw [conclude_of_records progress false world written returns]
  exact ⟨rfl, World.output_printing chunks middle⟩

/-- A command with a problem has its records printed before what went wrong. -/
theorem endsWith_of_problem {problem : Problem} (writable : IsWritable (.problem problem))
    (written : format.chunks records none = .ok chunks)
    (returns : command.runIn world = (.ok (.report (.of records (some problem))), middle)) :
    EndsWith (chunks ++ [lineOf (problemObject problem)]) (.ok problem.exitCode) middle
      ((conclude progress false (.text format.name) command).runIn world) := by
  rw [conclude_of_problem progress false world written returns]
  exact endsWith_explain progress writable chunks middle

/-- **Whatever a command makes, it is printed before what ends the run.** -/
theorem endsAfterTexts_conclude {problem : Option Problem}
    (sayable : ∀ found, problem = some found → Text.isTooLong found.exitCode = false)
    (returns : command.runIn world = (.ok (.report (.of records problem)), middle)) :
    EndsAfterTexts (format.yields records none) problem middle
      ((conclude progress false (.text format.name) command).runIn world) := by
  unfold EndsAfterTexts
  split
  · next goesOn =>
      have written : format.chunks records none = .ok (format.yields records none).texts := by
        rw [← Output.Format.result_yields, Output.Yielded.result, goesOn]
      cases problem with
      | none => exact endsWith_of_records progress written returns
      | some problem =>
          have writable := sayable problem rfl
          exact ⟨lineOf (problemObject problem), problemObject problem,
            isLineOf_problemObject writable, describes_problemObject problem,
            endsWith_of_problem progress writable written returns⟩
  · next fault stops =>
      rw [conclude_of_stopped progress world stops returns]
      have writable : IsWritable (.fault fault) := trivial
      exact endsWith_explain progress writable _ middle

/-- The records are printed before a problem even where its exit code has too many digits.  Then no
object can say of it, and a fault takes its place. -/
theorem endsWith_of_tooLong {problem : Problem} (long : Text.isTooLong problem.exitCode = true)
    (written : format.chunks records none = .ok chunks)
    (returns : command.runIn world = (.ok (.report (.of records (some problem))), middle)) :
    EndsWith chunks (.error (.fault .tooLongToWrite)) middle
      ((conclude progress false (.text format.name) command).runIn world) := by
  rw [conclude_of_problem progress false world written returns, explain_of_tooLong progress _ long]
  refine ⟨rfl, ?_⟩
  rw [output_complained]
  exact World.output_printing chunks middle

end Runs

/-! ## Strict runs -/

/-- The lines of a record that a run has made, if it has: its chunks in a format, in the form that is
asked for. -/
def IsShownAs (format : Output.Format) (located : Bool) (record : Option Record)
    (chunks : List String) : Prop :=
  match record with
  | none => chunks = []
  | some record =>
    format.chunks [(if located then record.located else record).toValue] none = .ok chunks

/-- A line that is read as an error object. -/
def IsErrorLine (line : String) : Prop :=
  ∃ object, Output.IsLineOf line object ∧ object.kind = .dict ∧ (object.entry? "error").isSome

theorem isLineOf_errorObject {failure : Failure} (writable : IsWritable failure) {object : Value}
    (isObject : errorObject? failure = some object) :
    Output.IsLineOf (lineOf object) object ∧ object.kind = .dict ∧ (object.entry? "error").isSome := by
  cases failure with
  | problem problem =>
      obtain rfl := Option.some.inj isObject
      exact ⟨isLineOf_problemObject writable, rfl, rfl⟩
  | fault fault =>
      unfold errorObject? at isObject
      dsimp only at isObject
      split at isObject
      · obtain rfl := Option.some.inj isObject
        exact ⟨Output.isLineOf_draft (isPlain_faultObject fault) rfl, rfl, rfl⟩
      · cases isObject

theorem isErrorLine_lineOf {failure : Failure} (writable : IsWritable failure) {object : Value}
    (isObject : errorObject? failure = some object) : IsErrorLine (lineOf object) :=
  ⟨object, isLineOf_errorObject writable isObject⟩

section Strict

variable {directory : String} {progress : Progress} {world middle : World Value}

/-- Where a record is found out, it is printed in every format, and what follows depends on its gaps
alone. -/
theorem strict_ends_of_found {facts : Record × Option Problem}
    (finds : (described directory progress).runIn world = (.ok facts, middle)) :
    ∃ ending errorLine, (∀ line, errorLine = some line → IsErrorLine line) ∧
      ∀ (format : Output.Format) (located : Bool), ∃ chunks,
        IsShownAs format located (some facts.1) chunks ∧
          EndsWith (chunks ++ errorLine.toList) ending middle
            ((conclude progress false (.text format.name)
              (described directory progress >>= showing true located false)).runIn world) := by
  have shows (located : Bool) (format : Output.Format) : ∃ chunks,
      format.chunks [(if located then facts.1.located else facts.1).toValue] none = .ok chunks :=
    IsRecord.exists_chunks (List.forall_mem_singleton.mpr (isRecord_toValue _)) format
  have returns (located : Bool) :
      (described directory progress >>= showing true located false).runIn world =
        (.ok (.report (shownProduction true located facts)), middle) :=
    Program.runIn_bind_of_ok finds _
  cases ends : strictProblem? true facts.2 facts.1.missingFields with
  | none =>
      refine ⟨.ok Failure.ExitCode.success, none, fun line isLine => (by cases isLine),
        fun format located => ?_⟩
      obtain ⟨chunks, written⟩ := shows located format
      refine ⟨chunks, written, ?_⟩
      rw [Option.toList_none, List.append_nil]
      have returns := returns located
      rw [shownProduction, ends] at returns
      exact endsWith_of_records progress written returns
  | some problem =>
      have writable := isWritable_of_isListed (isListed_of_strictProblem ends)
      refine ⟨.ok problem.exitCode, some (lineOf (problemObject problem)), fun line isLine => ?_,
        fun format located => ?_⟩
      · obtain rfl := Option.some.inj isLine
        exact isErrorLine_lineOf writable rfl
      · obtain ⟨chunks, written⟩ := shows located format
        refine ⟨chunks, written, ?_⟩
        have returns := returns located
        rw [shownProduction, ends] at returns
        exact endsWith_of_problem progress writable written returns

end Strict

/-- A run that describes a directory, once its format is chosen. -/
theorem obey_describe_runIn {directory : String} {strict located : Bool} {manner : Manner}
    {format : Value} {world : World Value} (loud : manner.quiet = false)
    (chooses : ((chosenFormat manner.format).runIn world).1 = .ok format) :
    let chosen := (Settings.load.runIn world).2
    let progress := Progress.seenIn (if manner.verbose then some true else none) chosen
    (obey (.describe directory strict located false manner)).runIn world =
      (conclude progress false format
        (described directory progress >>= showing strict located false)).runIn chosen := by
  have runs := produce_runIn manner (describe directory strict located false)
    (Prod.ext chooses (chosenFormat_world manner.format world))
  rw [loud, describe_eq] at runs
  exact runs

/-- **Strict runs in one world end alike.**  Whatever the format, and whether or not the record is
shown in full, they have one ending and one error line, and what is printed before it is one record. -/
theorem strict_runs_agree (directory : String) (verbose : Bool) (world : World Value) :
    ∃ (ending : Except Failure Int) (record : Option Record) (errorLine : Option String),
      (∀ line, errorLine = some line → IsErrorLine line) ∧
        ∀ (format : Output.Format) (manner : Manner) (located : Bool),
          ((chosenFormat manner.format).runIn world).1 = .ok (.text format.name) →
            manner.quiet = false → manner.verbose = verbose →
              ∃ chunks, IsShownAs format located record chunks ∧
                EndsWith (chunks ++ errorLine.toList) ending world
                  ((obey (.describe directory true located false manner)).runIn world) := by
  -- Neither the format nor the form of the record is looked at before the record is there.
  let chosen := (Settings.load.runIn world).2
  let progress := Progress.seenIn (if verbose then some true else none) chosen
  have chosenSilent := (Settings.load_alike (World.steady_silent _)).silent world
  have foundSilent :=
    (described_alike (Assembly.attuned_silent _) directory progress).silent chosen
  cases found : (described directory progress).runIn chosen with
  | mk result middle =>
      rw [found] at foundSilent
      have silent : World.output middle.trace = World.output world.trace :=
        foundSilent.1.trans chosenSilent.1
      cases result with
      | error failure =>
          have listed := foundSilent.2.listed
          refine ⟨endOf failure, none, (errorObject? failure).map lineOf, fun line isLine => ?_,
            fun format manner located chooses loud same => ⟨[], rfl, ?_⟩⟩
          · obtain ⟨object, isObject, rfl⟩ := Option.map_eq_some_iff.mp isLine
            exact isErrorLine_lineOf (isWritable_of_isListed listed) isObject
          · rw [obey_describe_runIn loud chooses, same, EndsWith, ← silent, Option.toList_map]
            exact endsWith_of_error progress _ (isWritable_of_isListed listed)
              (Program.runIn_bind_of_error found _)
      | ok facts =>
          obtain ⟨ending, errorLine, isLine, ends⟩ := strict_ends_of_found found
          refine ⟨ending, some facts.1, errorLine, isLine,
            fun format manner located chooses loud same => ?_⟩
          obtain ⟨chunks, shown, endsWith⟩ := ends format located
          refine ⟨chunks, shown, ?_⟩
          rw [obey_describe_runIn loud chooses, same, EndsWith, ← silent]
          exact endsWith

/-! ## No record is lost -/

/-- **Records that were made before a problem are never lost, and a format has no say in how a run
ends.**

A run that is not quiet prints what its format makes of the records of its command, whether the format
prints each record as soon as it is there or all of them at the end.  Then a problem puts its object on
one line and gives the exit code.  Only a fault that stops the format itself is in the way of that; it
ends the run after what was made before it, and plain dictionaries cause none.  All of this holds under
every limit on digits, and without one there is no exit code that cannot be said.  With one an exit code
of more digits, which no process can end with, has no text: the records are printed all the same.

A run chooses its format without a word before its command.  Strict runs in one world have one exit
code, one error line and one record before it, whatever the format and whether or not the record is
shown in full. -/
theorem records_before_problem :
    (∀ (limit : Text.DigitLimit) (Time : Type) (progress : Progress)
        (command : Program Time Result) (format : Output.Format) (records : List Value)
        (problem : Option Problem) (world middle : World Time),
      command.runIn world = (.ok (.report (.of records problem)), middle) →
        ((limit.most? = none ∨
          ∀ found, problem = some found → Text.isTooLong found.exitCode = false) →
          EndsAfterTexts (format.yields records none) problem middle
            ((conclude progress false (.text format.name) command).runIn world)) ∧
          ∀ (found : Problem) (chunks : List String), problem = some found →
            Text.isTooLong found.exitCode = true → format.chunks records none = .ok chunks →
              EndsWith chunks (.error (.fault .tooLongToWrite)) middle
                ((conclude progress false (.text format.name) command).runIn world)) ∧
      (∀ (limit : Text.DigitLimit) (records : List Value),
        (∀ record ∈ records, record.IsPlain ∧ record.kind = .dict) →
          limit.most? = none ∨ records.any Value.isTooLong = false →
            ∀ format : Output.Format, ∃ chunks, format.chunks records none = .ok chunks ∧
              format.yields records none = ⟨chunks, none⟩) ∧
      (∀ (manner : Manner) (command : Progress → Action Result) (format : Output.Format)
          (world chosen : World Value),
        manner.quiet = false →
          (chosenFormat manner.format).runIn world = (.ok (.text format.name), chosen) →
            ∃ progress, World.output chosen.trace = World.output world.trace ∧
              (produce manner command).runIn world =
                (conclude progress false (.text format.name) (command progress)).runIn chosen) ∧
        ∀ (world : World Value) (directory : String) (verbose debug : Bool),
          ∃ (exitCode : Int) (uncaught : Option Failure) (record : Option Record)
              (errorLine : Option String),
            (∀ line, errorLine = some line → IsErrorLine line) ∧
              ∀ (words rest : List String) (switches : Words) (format : Output.Format)
                  (manner : Manner) (located : Bool),
                Entry.read .root words = .ok (.command switches .describe rest) →
                  switches.has .debug = debug →
                    Request.read world.files world.cwd .describe rest =
                        .ok (.describe directory true located false manner) →
                      manner.quiet = false → manner.verbose = verbose →
                        ((chosenFormat manner.format).runIn world).1 = .ok (.text format.name) →
                          ∃ chunks, IsShownAs format located record chunks ∧
                            (outcomeIn world words).1.exitCode = exitCode ∧
                            (outcomeIn world words).1.uncaught = uncaught ∧
                            (outcomeIn world words).1.output =
                              linesText (chunks ++ errorLine.toList) := by
  refine ⟨?_, ?_, ?_, ?_⟩
  · intro limit Time progress command format records problem world middle returns
    refine ⟨fun allowed => endsAfterTexts_conclude progress (fun found isThere => ?_) returns,
      fun found chunks isThere long written => ?_⟩
    · exact allowed.elim (fun unlimited => Data.Scalar.isTooLong_of_unlimited unlimited
        (.int found.exitCode)) fun short => short found isThere
    · subst isThere
      exact endsWith_of_tooLong progress long written returns
  · intro limit records plain allowed format
    have short : records.any Value.isTooLong = false :=
      allowed.elim (fun unlimited => Value.any_isTooLong_of_unlimited unlimited records) id
    obtain ⟨chunks, written⟩ := Output.exists_chunks plain short format
    exact ⟨chunks, written, Output.Format.yields_of_chunks written⟩
  · intro manner command format world chosen loud chooses
    have silent := (chosenFormat_alike (World.steady_silent _) manner.format).silent world
    rw [chooses] at silent
    refine ⟨.seenIn (if manner.verbose then some true else none) chosen, silent.1, ?_⟩
    rw [produce_runIn _ _ chooses, loud]
  · intro world directory verbose debug
    have silent := (prepare_alike (World.steady_silent _) debug).silent (unsaid world)
    have sameView := sameView_prepare debug (unsaid world)
    cases prepares : (prepare debug).runIn (unsaid world) with
    | mk result prepared =>
        rw [prepares] at silent sameView
        cases result with
        | error failure =>
            refine ⟨Failure.ExitCode.generalError, some failure, none, none,
              fun line isLine => (by cases isLine), ?_⟩
            intro words rest switches format manner located leads same asks loud speaks chooses
            have runs : (run words).runIn (unsaid world) = (.error failure, prepared) := by
              rw [run_eq leads (by decide), same, Program.runIn_bind_of_error prepares]
            rw [outcomeIn_fst, runs]
            exact ⟨[], rfl, rfl, rfl, silent.1⟩
        | ok _ =>
            obtain ⟨ending, record, errorLine, isLine, agrees⟩ :=
              strict_runs_agree directory verbose prepared
            refine ⟨codeOf ending, uncaught? ending, record, errorLine, isLine, ?_⟩
            intro words rest switches format manner located leads same asks loud speaks chooses
            rw [chosenFormat_of_sameView ((sameView_unsaid world).trans sameView)] at chooses
            obtain ⟨chunks, shown, ends, output⟩ := agrees format manner located chooses loud speaks
            have runs := run_runIn leads (by decide) asks (by rw [same]; exact prepares)
            rw [outcomeIn_fst, runs]
            refine ⟨chunks, shown, by rw [ends], by rw [ends], ?_⟩
            rw [output, silent.1]
            exact String.empty_append

/-- A command that makes two records and then has a problem with an exit code of its own. -/
def brokenOff (_ : Progress) : Action Result :=
  pure (.report (.of [canonicalRecord "git@host:a", canonicalRecord "b"] (some (.plain "late" 9))))

theorem exists_chosenFormat (name : String) (world : World Value)
    (returns : ((chosenFormat (some name)).runIn world).1.toOption.isSome) :
    ∃ chosen, (chosenFormat (some name)).runIn world = (.ok (.text name), chosen) := by
  obtain ⟨format, chosen, chooses, -⟩ := Program.exists_of_toOption returns
  exact ⟨chosen, chosenFormat_named chooses ▸ chooses⟩

/-- The two records are printed as a table before the problem; a record has a text as YAML; and where
the commit cannot be found out, a strict run prints its table or the located record, then one and the
same line. -/
theorem records_before_problem_broken :
    (∃ chosen chunks, EndsAfter chunks (some (.plain "late" 9)) chosen
        ((produce { format := some "csv" } brokenOff).runIn (worldAnswering []))) ∧
      (∃ chunks, Output.Format.yaml.chunks [canonicalRecord "b"] none = .ok chunks) ∧
        ∃ record errorLine chunks others, IsShownAs .csv false record chunks ∧
          IsShownAs .json true record others ∧
          (outcomeIn worldWithoutHash ["meta", "--strict", "-f", "csv"]).1.output =
            linesText (chunks ++ Option.toList errorLine) ∧
          (outcomeIn worldWithoutHash ["meta", "--strict", "--clone", "-f", "json"]).1.output =
            linesText (others ++ errorLine.toList) ∧
          (outcomeIn worldWithoutHash ["meta", "--strict", "-f", "csv"]).1.exitCode =
            (outcomeIn worldWithoutHash ["meta", "--strict", "--clone", "-f", "json"]).1.exitCode := by
  obtain ⟨publishes, writes, prepares, strict⟩ := records_before_problem
  have plain (url : String) : (canonicalRecord url).IsPlain ∧ (canonicalRecord url).kind = .dict :=
    ⟨(isRecord_canonicalRecord url).plain, (isRecord_canonicalRecord url).isDict⟩
  refine ⟨?_, ?_, ?_⟩
  · obtain ⟨chosen, chooses⟩ := exists_chosenFormat "csv" (worldAnswering [])
      (by decide +kernel)
    obtain ⟨progress, -, runs⟩ :=
      prepares { format := some "csv" } brokenOff .csv (worldAnswering []) chosen rfl chooses
    obtain ⟨chunks, -, yields_eq⟩ := writes inferInstance
      [canonicalRecord "git@host:a", canonicalRecord "b"]
      (List.forall_mem_cons.mpr ⟨plain _, List.forall_mem_singleton.mpr (plain _)⟩) (.inr rfl) .csv
    have short : Text.isTooLong 9 = false := Data.isTooLong_eq_false 1 (by decide) (by decide)
    have ends :=
      (publishes inferInstance Value progress (brokenOff progress) .csv _ _ chosen chosen rfl).1
        (.inr fun found same => Option.some.inj same ▸ short)
    rw [yields_eq] at ends
    exact ⟨chosen, chunks, runs ▸ ends⟩
  · obtain ⟨chunks, written, -⟩ := writes inferInstance [canonicalRecord "b"]
      (List.forall_mem_singleton.mpr (plain _)) (.inr rfl) .yaml
    exact ⟨chunks, written⟩
  · obtain ⟨exitCode, uncaught, record, errorLine, -, agrees⟩ :=
      strict worldWithoutHash "." false false
    obtain ⟨chosen, chooses⟩ := exists_chosenFormat "csv" worldWithoutHash
      (by decide +kernel)
    obtain ⟨other, choosesOther⟩ := exists_chosenFormat "json" worldWithoutHash
      (by decide +kernel)
    obtain ⟨chunks, shown, code, -, output⟩ :=
      agrees ["meta", "--strict", "-f", "csv"] ["--strict", "-f", "csv"] _ .csv
        { format := some "csv" } false rfl rfl rfl rfl rfl (congrArg Prod.fst chooses)
    obtain ⟨others, shownOthers, codeOther, -, outputOther⟩ :=
      agrees ["meta", "--strict", "--clone", "-f", "json"] ["--strict", "--clone", "-f", "json"] _
        .json { format := some "json" } true rfl rfl rfl rfl rfl (congrArg Prod.fst choosesOther)
    exact ⟨record, errorLine, chunks, others, shown, shownOthers, output, outputOther,
      code.trans codeOther.symm⟩

end Provenance.CommandLine
