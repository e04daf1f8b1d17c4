import Provenance.Proofs.CommandLine.RecordsFirst

/-!
Contract: what is printed as lines of JSON is a clean stream of records.

Owns:
- `bare`, a command with its end, before anything is said of a failure;
- `IsRecordStream`, lines of records with at most one error object behind them, and the exit code
  that goes with them;
- `jsonl_is_record_stream`, for whole command lines.

Does **not** own: what the records hold.

## What is assumed of the settings

Where lines are known to be the format, the settings have been loaded and hold a section for
the output.  The log has to be set up before a command runs, so its section is assumed to be
the default one.  Nothing is assumed of the other settings: what is wrong with them ends the run
in a failure.
-/

set_option autoImplicit false

namespace Provenance
namespace CommandLine

open Data (Shared Value)
open Program (Agree)
open Settings (entryOr)

/-! ## Settings of the log -/

/-- Settings whose section about the log is the default one. -/
def HasDefaultLogging (settings : Shared) : Prop :=
  (entryOr "logging" (.dict []) settings).toOption.map Shared.head =
    some (.record Settings.loggingSection)

theorem exists_configured {settings : Shared} (logging : HasDefaultLogging settings) :
    ∃ shown, Journal.configured settings = .ok shown := by
  obtain ⟨part, found, isDefault⟩ := Option.map_eq_some_iff.mp logging
  have entry : entryOr "logging" (.dict []) settings = .ok part := by
    cases entry : entryOr "logging" (.dict []) settings with
    | error fault => rw [entry] at found; cases found
    | ok other => rw [entry] at found; exact congrArg _ (Option.some.inj found)
  refine ⟨(World.Level.warning, "%(levelname)s: %(message)s"), ?_⟩
  unfold Journal.configured
  dsimp only
  split
  · rw [entry]
    change (entryOr "level" _ part >>= _) = _
    unfold entryOr
    rw [isDefault]
    rfl
  · rfl

theorem prepare_returns {world : World Value} {settings : Shared} (debug : Bool)
    (loads : (Settings.load.runIn world).1 = .ok settings) (logging : HasDefaultLogging settings) :
    ((prepare debug).runIn world).1 = .ok () := by
  obtain ⟨⟨level, layout⟩, configures⟩ := exists_configured logging
  cases runs : Settings.load.runIn world with
  | mk result after =>
      rw [runs] at loads
      obtain rfl : result = .ok settings := loads
      have configured : (Journal.configure settings : Action Unit).runIn after =
          (.ok (), after.after (.logShown level layout)) := by
        unfold Journal.configure
        rw [configures]
        rfl
      unfold prepare
      rw [Program.runIn_bind_of_ok runs, Program.runIn_bind_of_ok configured]
      cases debug <;> rfl

/-- No format is chosen unless the settings have been loaded. -/
theorem exists_loaded {named : Option String} {format : Value} {world : World Value}
    (chooses : ((chosenFormat named).runIn world).1 = .ok format) :
    ∃ settings, (Settings.load.runIn world).1 = .ok settings := by
  cases runs : (chosenFormat named).runIn world with
  | mk result after =>
      rw [runs] at chooses
      obtain rfl : result = .ok format := chooses
      obtain ⟨settings, middle, loads, -⟩ := Program.exists_of_bind_eq_ok runs
      exact ⟨settings, by rw [loads]⟩

/-! ## Streams -/

/-- A command with its end, before anything is said of a failure. -/
def bare (manner : Manner) (command : Progress → Action Result) : Action Int := do
  let format ← chosenFormat manner.format
  let progress ← Progress.current none (if manner.verbose then some true else none)
  let result ← command progress
  result.finish manner.quiet format

theorem bare_runIn (manner : Manner) (command : Progress → Action Result) {format : Value}
    {world chosen : World Value}
    (chooses : (chosenFormat manner.format).runIn world = (.ok format, chosen)) :
    (bare manner command).runIn world =
      (command (.seenIn (if manner.verbose then some true else none) chosen) >>= fun result =>
        result.finish manner.quiet format).runIn chosen := by
  unfold bare
  rw [Program.runIn_bind_of_ok chooses, Program.runIn_bind_of_ok (Progress.current_runIn _ chosen)]

/-- A failure of which a run says what went wrong: a problem of its own, a refusal by the system, bad
data, or a value of a wrong kind. -/
def IsReported : Failure → Prop
  | .problem _ => True
  | .fault fault => fault.isRefusal ∨ fault.isBadData ∨ fault.isWrongKind

/-- **A clean stream**, for the ending of a run before anything was said of it, its exit code and its
standard output.

The output is lines, each of which is read as one record, or as the error object that stands behind
all records if there is one.  There is one exactly where the run ended in a failure that is reported.
The exit code is zero exactly where it ended well, it is the one in the error object if that holds
one, and an interrupted run has a code of its own. -/
structure IsRecordStream (ending : Except Failure Int) (code : Int) (output : String)
    (records : List Value) (object : Option Value) : Prop where
  lines : ∃ lines, output = linesText lines ∧
    List.Forall₂ Output.IsLineOf lines (records ++ object.toList)
  areRecords : ∀ record ∈ records, record.kind = .dict ∧ record.entry? "error" = none
  isError : ∀ found, object = some found → found.kind = .dict ∧ (found.entry? "error").isSome
  isReported : object.isSome ↔ ∃ failure, ending = .error failure ∧ IsReported failure
  succeeds : code = Failure.ExitCode.success ↔ ∃ returned, ending = .ok returned
  exitCode : ∀ found value, object = some found → found.entry? "exit_code" = some value →
    value = .int code
  interrupted : ending = .error (.fault .interrupted) → code = Failure.ExitCode.interrupted

/-! ## Failures -/

theorem isSome_errorObject?_iff (failure : Failure) :
    (errorObject? failure).isSome ↔ IsReported failure := by
  cases failure with
  | problem problem => exact ⟨fun _ => trivial, fun _ => rfl⟩
  | fault fault =>
      have isReported_iff : isReported fault = true ↔ IsReported (.fault fault) := by
        simp only [isReported, IsReported, Bool.or_eq_true, or_assoc]
      rw [← isReported_iff, errorObject?]
      split
      · next reported => exact ⟨fun _ => reported, fun _ => rfl⟩
      · next silent => exact ⟨fun isSome => (by cases isSome), fun reported => absurd reported silent⟩

/-- No failure ends a run as if it had succeeded. -/
theorem codeOf_endOf_ne {failure : Failure} (listed : failure.IsListed) :
    codeOf (endOf failure) ≠ Failure.ExitCode.success := by
  have ofClass (name : String) : Failure.exitCodeOf name ≠ 0 := by
    unfold Failure.exitCodeOf
    split <;> decide
  have ofKind (kind : Failure.GitProblem) : kind.exitCode ≠ 0 := by
    cases kind with
    | gap field => exact (by decide : Failure.ExitCode.partialSuccess ≠ 0)
    | _ => decide
  unfold endOf
  split
  · cases failure with
    | fault fault => exact Int.natCast_ne_zero.mpr (ofClass _)
    | problem problem =>
        cases problem with
        | plain message exitCode => cases listed
        | partialSuccess message missing =>
            exact (by decide : (Failure.ExitCode.partialSuccess : Int) ≠ 0)
        | git kind headline detail => exact Int.natCast_ne_zero.mpr (ofKind kind)
  · exact (by decide : (Failure.ExitCode.generalError : Int) ≠ 0)

/-- The exit code that an error object holds is the one of the run. -/
theorem exitCode_errorObject {failure : Failure} {object value : Value}
    (isObject : errorObject? failure = some object) (holds : object.entry? "exit_code" = some value) :
    value = .int (codeOf (endOf failure)) := by
  cases failure with
  | problem problem =>
      obtain rfl := Option.some.inj isObject
      rw [(describes_problemObject problem).exitCode] at holds
      exact (Option.some.inj holds).symm
  | fault fault =>
      unfold errorObject? at isObject
      dsimp only at isObject
      split at isObject
      · obtain rfl := Option.some.inj isObject
        cases holds
      · cases isObject

/-! ## Runs -/

section Streams

variable {records : List Value} (areRecords : ∀ record ∈ records, IsRecord record)

include areRecords

theorem isRecordStream_of_success :
    IsRecordStream (.ok Failure.ExitCode.success) Failure.ExitCode.success
      (linesText (records.map lineOf)) records none where
  lines := by
    refine ⟨_, rfl, ?_⟩
    rw [Option.toList_none, List.append_nil, List.forall₂_map_left_iff, List.forall₂_same]
    exact fun record member =>
      Output.isLineOf_draft (areRecords record member).plain (areRecords record member).short
  areRecords := fun record member => ⟨(areRecords record member).isDict, (areRecords record member).isData⟩
  isError := fun _ isObject => by cases isObject
  isReported := ⟨fun isSome => (by cases isSome), fun ⟨_, fails, _⟩ => (by cases fails)⟩
  succeeds := ⟨fun _ => ⟨_, rfl⟩, fun _ => rfl⟩
  exitCode := fun _ _ isObject => by cases isObject
  interrupted := fun fails => by cases fails

theorem isRecordStream_of_failure {failure : Failure} (listed : failure.IsListed) :
    IsRecordStream (.error failure) (codeOf (endOf failure))
      (linesText (records.map lineOf ++ (errorObject? failure).toList.map lineOf)) records
      (errorObject? failure) where
  lines := by
    refine ⟨_, rfl, ?_⟩
    rw [← List.map_append, List.forall₂_map_left_iff, List.forall₂_same]
    intro value member
    rcases List.mem_append.mp member with isRecord | isObject
    · exact Output.isLineOf_draft (areRecords value isRecord).plain (areRecords value isRecord).short
    · exact (isLineOf_errorObject (isWritable_of_isListed listed) (Option.mem_toList.mp isObject)).1
  areRecords := fun record member => ⟨(areRecords record member).isDict, (areRecords record member).isData⟩
  isError := fun _ isObject => (isLineOf_errorObject (isWritable_of_isListed listed) isObject).2
  isReported := by
    rw [isSome_errorObject?_iff]
    refine ⟨fun reported => ⟨failure, rfl, reported⟩, ?_⟩
    rintro ⟨_, ⟨⟩, reported⟩
    exact reported
  succeeds :=
    ⟨fun succeeds => absurd succeeds (codeOf_endOf_ne listed), fun ⟨_, returns⟩ => (by cases returns)⟩
  exitCode := fun _ _ isObject holds => exitCode_errorObject isObject holds
  interrupted := fun fails => by cases fails; rfl

end Streams

/-- **The end of a command is a clean stream**, unless its words are wrong. -/
theorem conclude_streams (progress : Progress) {command : Action Result} {world : World Value}
    (silent : World.output (command.runIn world).2.trace = "")
    (orderly : Agree Result.Alike (command.runIn world).1 (command.runIn world).1) :
    let format : Value := .text Output.Format.jsonl.name
    let run := (conclude progress false format command).runIn world
    codeOf run.1 = Failure.ExitCode.usageError ∨ ∃ records object,
      IsRecordStream ((command >>= fun result => result.finish false format).runIn world).1
        (codeOf run.1) (World.output run.2.trace) records object := by
  dsimp only
  cases runs : command.runIn world with
  | mk result middle =>
      rw [runs] at silent orderly
      cases orderly with
      | @error failure listed =>
          obtain ⟨ending, output⟩ := endsWith_of_error progress (.text Output.Format.jsonl.name)
            (isWritable_of_isListed listed) runs
          refine .inr ⟨[], errorObject? failure, ?_⟩
          rw [ending, output, silent, String.empty_append, Program.runIn_bind_of_error runs]
          exact isRecordStream_of_failure (List.forall_mem_nil _) listed
      | @ok result _ same =>
          rw [Program.runIn_bind_of_ok runs]
          obtain ⟨_, same⟩ : ∃ other, Result.Alike result other := ⟨_, same⟩
          cases same with
          | done =>
              rw [conclude_of_finish progress false world runs rfl]
              refine .inr ⟨[], none, ?_⟩
              rw [show World.output (Except.ok Result.done, middle).2.trace = "" from silent]
              exact isRecordStream_of_success (List.forall_mem_nil _)
          | misuse error =>
              rw [conclude_of_finish progress false world runs rfl]
              exact .inl rfl
          | @report records _ problem areRecords _ listed =>
              have written := chunks_jsonl areRecords
              rw [finish_runIn, shownYielded_of_chunks false written]
              cases problem with
              | none =>
                  obtain ⟨ending, output⟩ := endsWith_of_records progress written runs
                  rw [ending, output, silent, String.empty_append]
                  exact .inr ⟨records, none, isRecordStream_of_success areRecords⟩
              | some problem =>
                  obtain ⟨ending, output⟩ := endsWith_of_problem progress
                    (isWritable_of_isListed (listed problem rfl)) written runs
                  rw [ending, output, silent, String.empty_append]
                  exact .inr ⟨records, _, isRecordStream_of_failure areRecords (listed problem rfl)⟩

/-! ## Command lines -/

theorem ne_settings_of_data {world : World Value} {chosen : Command} {rest : List String}
    {request : Request} (asks : Request.read world.files world.cwd chosen rest = .ok request)
    (data : (dataCommand? request).isSome) : chosen ≠ .settings := by
  rintro rfl
  rcases Request.cases_read asks with rfl | ⟨taken, -, asks⟩
  · cases data
  · obtain rfl := Except.ok.inj asks
    cases data

/-- **What is printed as lines of JSON is a clean stream of records.**

For every command line that asks for records, every directory tree and whatever version control
answers, a run that is not quiet and whose words are not refused leaves a clean stream behind: each
record on a line of its own, then the one error object if the run ended in a failure that is reported,
and the exit code that goes with the ending.  The ending is that of the same run without anything
being said of failures. -/
theorem jsonl_is_record_stream {world : World Value} {words rest : List String} {switches : Words}
    {chosen : Command} {request : Request} {manner : Manner} {command : Progress → Action Result}
    (leads : Entry.read .root words = .ok (.command switches chosen rest))
    (asks : Request.read world.files world.cwd chosen rest = .ok request)
    (data : dataCommand? request = some (manner, command)) (loud : manner.quiet = false)
    (isJsonl : ((chosenFormat manner.format).runIn world).1 = .ok (.text Output.Format.jsonl.name))
    (logging : ∀ settings, (Settings.load.runIn world).1 = .ok settings → HasDefaultLogging settings)
    (accepted : (outcomeIn world words).1.exitCode ≠ Failure.ExitCode.usageError) :
    ∃ records object, IsRecordStream
      ((do prepare (switches.has .debug); bare manner command : Action Int).runIn (unsaid world)).1
      (outcomeIn world words).1.exitCode (outcomeIn world words).1.output records object := by
  have other := ne_settings_of_data asks (by rw [data]; rfl)
  have silent := (prepare_alike (World.steady_silent _) (switches.has .debug)).silent (unsaid world)
  have sameView := sameView_prepare (switches.has .debug) (unsaid world)
  -- A format is chosen, so the settings were loaded, and the log could be set up as well.
  obtain ⟨settings, loads⟩ := exists_loaded isJsonl
  have loadsUnsaid : (Settings.load.runIn (unsaid world)).1 = .ok settings :=
    (((Settings.load_alike World.steady_sameView) world (unsaid world) (sameView_unsaid world)).2.eq
      ).symm.trans loads
  have prepared_ok := prepare_returns (switches.has .debug) loadsUnsaid (logging settings loads)
  cases prepares : (prepare (switches.has .debug)).runIn (unsaid world) with
  | mk result prepared =>
      rw [prepares] at silent sameView prepared_ok
      obtain rfl : result = .ok () := prepared_ok
      rw [chosenFormat_of_sameView ((sameView_unsaid world).trans sameView)] at isJsonl
      have chosenSilent :=
        (chosenFormat_alike (World.steady_silent _) manner.format).silent prepared
      cases chooses : (chosenFormat manner.format).runIn prepared with
      | mk named chosen =>
          rw [chooses] at isJsonl chosenSilent
          obtain rfl : named = .ok (.text Output.Format.jsonl.name) := isJsonl
          let progress := Progress.seenIn (if manner.verbose then some true else none) chosen
          have made := (data_alike (Assembly.attuned_silent _) data progress).silent chosen
          have streams := conclude_streams progress
            (made.1.trans (chosenSilent.1.trans silent.1)) made.2
          have runs := run_runIn leads other asks prepares
          rw [obey_of_data data, produce_runIn manner command chooses, loud] at runs
          rw [Program.runIn_bind_of_ok prepares, bare_runIn manner command chooses, loud]
          rw [outcomeIn_fst, runs] at accepted ⊢
          exact streams.resolve_left accepted

/-- Where the commit cannot be found out, a strict run without any settings of its own leaves such a
stream behind. -/
theorem jsonl_is_record_stream_strict :
    ∃ ending records object, IsRecordStream ending
      (outcomeIn worldWithoutHash ["meta", "--strict"]).1.exitCode
      (outcomeIn worldWithoutHash ["meta", "--strict"]).1.output records object := by
  have leads : Entry.read .root ["meta", "--strict"] =
      .ok (.command ⟨[], ["meta", "--strict"]⟩ .describe ["--strict"]) := rfl
  have asks : Request.read worldWithoutHash.files worldWithoutHash.cwd .describe ["--strict"] =
      .ok (.describe "." true false false {}) := rfl
  have loads : (Settings.load.runIn worldWithoutHash).1 = .ok (.plain Settings.defaults) := rfl
  have isJsonl : ((chosenFormat none).runIn worldWithoutHash).1 =
      .ok (.text Output.Format.jsonl.name) := rfl
  have logging : ∀ settings, (Settings.load.runIn worldWithoutHash).1 = .ok settings →
      HasDefaultLogging settings := by
    intro settings loaded
    obtain rfl := Except.ok.inj (loads.symm.trans loaded)
    rfl
  obtain ⟨records, object, stream⟩ := jsonl_is_record_stream leads asks rfl rfl isJsonl logging
    (by decide +kernel)
  exact ⟨_, records, object, stream⟩

end CommandLine
end Provenance
