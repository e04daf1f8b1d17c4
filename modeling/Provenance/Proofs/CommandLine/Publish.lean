import Provenance.CommandLine.Run
import Provenance.Data.Part
import Provenance.Proofs.Output.JsonLines
import Provenance.Proofs.Output.Table
import Provenance.Proofs.World.Alike

/-!
Contract: what the end of a command puts on the two streams.

Owns:
- `IsRecord`, what commands produce, and that it has a text in every format;
- `World.printing`, a world in which some lines have been printed;
- `endOf`, `complaint` and `errorObject?`, what a failure ends a run with;
- `publish_runIn`: whether records are printed while they are made or at the end, a problem behind them
  ends the printing in the same way; `publish_of_fault`: another failure does not;
- `conclude_of_error`, `conclude_of_records`, `conclude_of_problem` and `conclude_of_stopped`: a
  command's run and what is printed after it, in one equation each.

Does **not** own: what a command does before it ends.

## Why equations of worlds

What stands on a stream is read off the trace.  An equation of worlds says all at once: what
is printed, that it is printed after everything else, and that nothing else has changed.
-/

set_option autoImplicit false

namespace Provenance

/-! ## Printed lines -/

/-- Some lines, each with its end. -/
def linesText (lines : List String) : String :=
  String.join (lines.map (· ++ "\n"))

theorem linesText_append (first second : List String) :
    linesText (first ++ second) = linesText first ++ linesText second := by
  simp [linesText, String.join_append]

namespace World

variable {Time : Type}

/-- The world after some lines have been printed. -/
def printing (lines : List String) (world : World Time) : World Time :=
  { world with trace := world.trace ++ lines.map fun line => .printed (line ++ "\n") }

theorem output_printing (lines : List String) (world : World Time) :
    output (world.printing lines).trace = output world.trace ++ linesText lines := by
  have printed : output (lines.map fun line => (Event.printed (line ++ "\n") : Event Time)) =
      linesText lines := by
    simp [output, linesText, List.filterMap_map]
  rw [printing, output_append, printed]

@[simp] theorem printing_nil (world : World Time) : world.printing [] = world := by
  simp [printing]

theorem printing_printing (first second : List String) (world : World Time) :
    (world.printing first).printing second = world.printing (first ++ second) := by
  simp [printing]

end World

namespace Program

variable {Time : Type}

theorem runIn_printLines (lines : List String) (world : World Time) :
    (lines.forM printLine).runIn world = (.ok (), world.printing lines) := by
  induction lines generalizing world with
  | nil => rw [World.printing_nil]; rfl
  | cons line rest inductionHypothesis =>
      have first : (printLine line).runIn world = (.ok (), world.printing [line]) := rfl
      refine (runIn_bind_of_ok first _).trans ?_
      rw [inductionHypothesis, World.printing_printing, List.singleton_append]

end Program

namespace Output

open Data (Value)
open Delimited

/-- Plain dictionaries without a number of too many digits have a text in every format. -/
theorem exists_chunks [Text.DigitLimit] {records : List Value}
    (plain : ∀ record ∈ records, record.IsPlain ∧ record.kind = .dict)
    (short : records.any Value.isTooLong = false) (format : Format) :
    ∃ chunks, format.chunks records none = .ok chunks := by
  have table (delimiter : Char) : ∃ written, write delimiter none records = .ok written := by
    obtain ⟨rows, flattened, -, flat⟩ := exists_flattened plain
    obtain ⟨header, -, header_eq⟩ :=
      exists_isHeader (fun row member => (flat row member).keys_eq) none
    have noList := any_hasTooLongList_eq_false plain short
    have isThere := flattened.trans (Data.unlessLong_of_short noList)
    cases rows with
    | nil =>
        rw [write, isThere]
        exact ⟨none, rfl⟩
    | cons row rest =>
        exact ⟨_, (write_of_rows isThere (List.cons_ne_nil row rest) header_eq).trans
          (Data.unlessLong_of_short (areRowsTooLong_eq_false short flat header))⟩
  have wholePlain : (Value.list records).IsPlain :=
    .list fun record member => (plain record member).1
  have wholeShort : (Value.list records).isTooLong = false :=
    (Value.areItemsTooLong_eq records).trans short
  cases format with
  | jsonl =>
      rw [Format.chunks, mapM_write .line fun record member => (plain record member).1, short]
      exact ⟨_, rfl⟩
  | json =>
      rw [Format.chunks, Json.write_eq wholePlain, wholeShort]
      exact ⟨_, rfl⟩
  | yaml =>
      rw [Format.chunks, Yaml.dump, wholeShort]
      exact ⟨_, rfl⟩
  | csv =>
      obtain ⟨written, writes⟩ := table ','
      exact ⟨_, congrArg (Except.map Option.toList) writes⟩
  | tsv =>
      obtain ⟨written, writes⟩ := table '\t'
      exact ⟨_, congrArg (Except.map Option.toList) writes⟩

theorem ofValue_name [Text.DigitLimit] (format : Format) :
    Format.ofValue (.text format.name) = .ok format := by
  cases format <;> rfl

end Output

namespace CommandLine

open Data (Value)
open Failure (Fault Problem)

/-! ## Records and objects -/

/-- A dictionary that has a text in every format and is no error object. -/
structure IsRecord (value : Value) : Prop where
  plain : value.IsPlain
  short : value.isTooLong = false
  isDict : value.kind = .dict
  isData : value.entry? "error" = none

theorem isRecord_toValue (record : Record) : IsRecord record.toValue where
  plain := Output.isPlain_toValue record
  short := Output.isTooLong_toValue record
  isDict := rfl
  isData := rfl

/-- Entries that are texts make a record, unless one of them is an error. -/
theorem isRecord_texts (entries : List (String × String)) (distinct : (entries.map Prod.fst).Nodup)
    (isData : Value.entry? "error" (.record (entries.map fun entry => (entry.1, .text entry.2))) =
      none) :
    IsRecord (.record (entries.map fun entry => (entry.1, .text entry.2))) where
  plain := by
    refine .record (by rwa [List.map_map]) fun entry member => ?_
    obtain ⟨text, -, rfl⟩ := List.mem_map.mp member
    exact .text _
  short := by
    refine (Value.areEntriesTooLong_named _).trans (List.any_eq_false.mpr fun entry member => ?_)
    obtain ⟨text, -, rfl⟩ := List.mem_map.mp member
    exact Bool.false_ne_true
  isDict := rfl
  isData := isData

theorem isRecord_canonicalRecord (url : String) : IsRecord (canonicalRecord url) :=
  isRecord_texts [("url", url), ("git_url", Remote.canonical url)] (by simp) rfl

theorem isRecord_pinnedRecord (reference pinned : Reference) :
    IsRecord (pinnedRecord reference pinned) :=
  isRecord_texts [("reference", reference.text), ("rewritten", pinned.text),
    ("kind", pinned.variant.kind), ("name", pinned.name), ("git_url", pinned.gitUrl),
    ("tag", pinned.tag)] (by simp) rfl

theorem IsRecord.any_isTooLong {records : List Value}
    (areRecords : ∀ record ∈ records, IsRecord record) :
    records.any Value.isTooLong = false :=
  List.any_eq_false.mpr fun record member => Bool.eq_false_iff.mp (areRecords record member).short

theorem IsRecord.exists_chunks {records : List Value}
    (areRecords : ∀ record ∈ records, IsRecord record) (format : Output.Format) :
    ∃ chunks, format.chunks records none = .ok chunks :=
  Output.exists_chunks
    (fun record member => ⟨(areRecords record member).plain, (areRecords record member).isDict⟩)
    (IsRecord.any_isTooLong areRecords) format

/-- The line of a value. -/
def lineOf [Text.DigitLimit] (value : Value) : String :=
  String.ofList (Json.draft .line value).text

theorem chunks_jsonl {records : List Value} (areRecords : ∀ record ∈ records, IsRecord record) :
    Output.Format.jsonl.chunks records none = .ok (records.map lineOf) := by
  have plain : ∀ record ∈ records, record.IsPlain := fun record member =>
    (areRecords record member).plain
  rw [Output.Format.chunks, Output.mapM_write .line plain, IsRecord.any_isTooLong areRecords]
  rfl

theorem isPlain_problemObject (problem : Problem) : (problemObject problem).IsPlain := by
  unfold problemObject
  cases problem.missing? with
  | none =>
      refine .record (by simp) ?_
      simp only [Option.map_none, Option.toList_none, List.append_nil, List.forall_mem_cons]
      exact ⟨.text _, .text _, .int _, fun _ member => absurd member List.not_mem_nil⟩
  | some missing =>
      refine .record (by simp) ?_
      simp only [Option.map_some, Option.toList_some, List.cons_append, List.nil_append,
        List.forall_mem_cons]
      exact ⟨.text _, .text _, .int _, Output.isPlain_texts _,
        fun _ member => absurd member List.not_mem_nil⟩

/-- The exit code is all that can be too long in the object of a problem. -/
theorem isTooLong_problemObject [Text.DigitLimit] (problem : Problem) :
    (problemObject problem).isTooLong = Text.isTooLong problem.exitCode := by
  unfold problemObject
  rw [Value.record]
  refine (Value.areEntriesTooLong_named _).trans ?_
  cases problem.missing? with
  | none => simp [Value.isTooLong, Data.Scalar.isTooLong]
  | some missing => simp [Value.isTooLong, Data.Scalar.isTooLong, Output.isTooLong_texts]

/-- A failure whose exit code has a text.  That of a problem is part of its object. -/
def IsWritable [Text.DigitLimit] : Failure → Prop
  | .problem problem => Text.isTooLong problem.exitCode = false
  | .fault _ => True

theorem isWritable_of_isListed {failure : Failure} (listed : failure.IsListed) :
    IsWritable failure := by
  have small : ∀ kind : Failure.GitProblem, kind.exitCode < Nat.pow 10 3 := by
    intro kind
    cases kind with
    | gap field => exact (by decide : Failure.ExitCode.partialSuccess < Nat.pow 10 3)
    | _ => decide
  cases failure with
  | fault fault => trivial
  | problem problem =>
      refine Data.isTooLong_eq_false 3 (by decide) ?_
      cases problem with
      | plain message exitCode => cases listed
      | partialSuccess message missing =>
          exact (by decide : Failure.ExitCode.partialSuccess < Nat.pow 10 3)
      | git kind headline detail => exact small kind

theorem isPlain_faultObject [Text.DigitLimit] (fault : Fault) : (faultObject fault).IsPlain := by
  refine .record (by simp) ?_
  simp only [List.forall_mem_cons]
  exact ⟨.text _, .text _, fun _ member => absurd member List.not_mem_nil⟩

/-! ## How a failure ends a run -/

section Failing

variable [Text.DigitLimit]

/-- The object that says of a failure what went wrong; an interrupted run has none, and one that is
not ended in good order. -/
def errorObject? : Failure → Option Value
  | .problem problem => some (problemObject problem)
  | .fault fault => if isReported fault then some (faultObject fault) else none

/-- Whether a failure ends a run in good order. -/
def isSettled : Failure → Bool
  | .problem _ => true
  | .fault fault => isReported fault || fault == .interrupted

/-- What a run ends with that a failure has reached. -/
def endOf (failure : Failure) : Except Failure Int :=
  if isSettled failure then .ok failure.exitCode else .error failure

def complaint : Failure → String
  | .problem problem => problem.message
  | .fault .interrupted => "Interrupted by user"
  | .fault fault => "Command failed: " ++ fault.message

/-- The world after a failure has been complained of, if it is. -/
def complained {Time : Type} (progress : Progress) (failure : Failure) (world : World Time) :
    World Time :=
  if isSettled failure then
    world.after (.reported (progress.coloured "31" ("ERROR: " ++ complaint failure) ++ "\n"))
  else
    world

end Failing

/-- The lines of data, of which a quiet run has none. -/
def shownLines (quiet : Bool) (lines : List String) : List String :=
  if quiet then [] else lines

theorem shownLines_nil (quiet : Bool) : shownLines quiet [] = [] := by
  cases quiet <;> rfl

section Ends

variable {Time : Type} (progress : Progress) (quiet : Bool) (world : World Time)

theorem complain_runIn (message : String) :
    (progress.complain message).runIn world =
      (.ok (), world.after
        (.reported (progress.coloured "31" ("ERROR: " ++ message) ++ "\n"))) := rfl

variable [Text.DigitLimit]

theorem printObject_of_ok {object : Value} {line : String}
    (written : Json.write .line object = .ok line) :
    (printObject object).runIn world = (.ok (), world.printing [line]) := by
  unfold printObject
  rw [written]
  rfl

theorem printObject_of_error {object : Value} {fault : Fault}
    (unwritten : Json.write .line object = .error fault) :
    (printObject object).runIn world = (.error (.fault fault), world) := by
  unfold printObject
  rw [unwritten]
  rfl

theorem printObject_runIn {object : Value} (plain : object.IsPlain)
    (short : object.isTooLong = false) :
    (printObject object).runIn world = (.ok (), world.printing [lineOf object]) :=
  printObject_of_ok world ((Json.write_eq plain).trans (Data.unlessLong_of_short short))

/-- A complaint, the object of it unless the run is quiet, and the exit code. -/
theorem report_runIn {object : Value} (plain : object.IsPlain) (short : object.isTooLong = false)
    (message : String) (code : Int) :
    (do
      progress.complain message
      if !quiet then
        printObject object
      pure code : Program Time Int).runIn world =
      (.ok code, (world.after
        (.reported (progress.coloured "31" ("ERROR: " ++ message) ++ "\n"))).printing
          (shownLines quiet [lineOf object])) := by
  refine (Program.runIn_bind_of_ok (complain_runIn progress world message) _).trans ?_
  cases quiet with
  | true => rw [shownLines, if_pos rfl, World.printing_nil]; rfl
  | false => exact Program.runIn_bind_of_ok (printObject_runIn _ plain short) _

/-- **How a failure ends a run.**  A problem or a fault that ends the run in good order is complained
of, then its object is printed, and the exit code follows; any other fault is left as it is. -/
theorem explain_runIn {failure : Failure} (writable : IsWritable failure) :
    (explain progress quiet failure).runIn world =
      (endOf failure,
        (complained progress failure world).printing
          (shownLines quiet ((errorObject? failure).toList.map lineOf))) := by
  unfold explain
  split
  · next problem =>
      exact report_runIn progress quiet world (isPlain_problemObject problem)
        ((isTooLong_problemObject problem).trans writable) _ _
  · have noObject : errorObject? (.fault .interrupted) = none := rfl
    rw [noObject, Option.toList_none, List.map_nil, shownLines_nil, World.printing_nil]
    exact Program.runIn_bind_of_ok (complain_runIn progress world _) _
  · next fault notInterrupted =>
      have complaint_eq : complaint (.fault fault) = "Command failed: " ++ fault.message := by
        unfold complaint
        split
        · next same => cases same
        · next same => cases same; exact absurd rfl notInterrupted
        · next same => cases same; rfl
      have other : (fault == .interrupted) = false := by simpa using notInterrupted
      have isSettled_eq : isSettled (.fault fault) = isReported fault := by
        rw [isSettled, other, Bool.or_false]
      rw [endOf, complained, isSettled_eq, complaint_eq, errorObject?]
      cases isReported fault with
      | true =>
          exact report_runIn progress quiet world (isPlain_faultObject fault) rfl _ _
      | false => simp [shownLines_nil]

/-- Where the exit code of a problem has no text, the run cannot say what its object would. -/
theorem explain_of_tooLong {problem : Problem} (long : Text.isTooLong problem.exitCode = true) :
    (explain progress false (.problem problem)).runIn world =
      (.error (.fault .tooLongToWrite), complained progress (.problem problem) world) := by
  have isTooLong := (isTooLong_problemObject problem).trans long
  have unwritten : Json.write .line (problemObject problem) = .error .tooLongToWrite :=
    (Json.write_eq (isPlain_problemObject problem)).trans (Data.unlessLong_of_long isTooLong)
  have complains := complain_runIn progress world problem.message
  have fails := printObject_of_error (complained progress (.problem problem) world) unwritten
  exact (Program.runIn_bind_of_ok complains _).trans (Program.runIn_bind_of_error fails _)

/-! ## Productions -/

section Productions

variable {records : List Value} {problem : Option Problem}

/-- What a production comes to behind its records. -/
def behindRecords (problem : Option Problem) : Except Failure Unit :=
  match problem with
  | none => .ok ()
  | some problem => .error (.problem problem)

/-- What printing comes to: what has stopped the format, or else what is behind the records. -/
def behindTexts (yielded : Output.Yielded) (behind : Except Failure Unit) : Except Failure Unit :=
  match yielded.stopped with
  | none => behind
  | some fault => .error (.fault fault)

omit [Text.DigitLimit] in
theorem consume_runIn :
    (Production.of records problem).consume.runIn world = (behindRecords problem, world) := by
  induction records with
  | nil => cases problem <;> rfl
  | cons record rest inductionHypothesis => exact inductionHypothesis

omit [Text.DigitLimit] in
/-- What is gathered of a production is its records, with the problem behind them put off. -/
theorem gather_of : (Production.of records problem).gather = .ok (records, problem) := by
  induction records with
  | nil => cases problem <;> rfl
  | cons record rest inductionHypothesis =>
      exact congrArg (Except.map fun found : List Value × Option Problem =>
        (record :: found.1, found.2)) inductionHypothesis

/-- Records are printed as they are made, up to the first that has no text.  Only then does what is
behind them end the printing. -/
theorem stream_runIn {last : Production} {behind : Except Failure Unit}
    (ends : ∀ world : World Time, last.stream.runIn world = (behind, world)) :
    (records.foldr Production.yields last).stream.runIn world =
      (behindTexts (.lines records) behind, world.printing (Output.Yielded.lines records).texts) := by
  induction records generalizing world with
  | nil =>
      rw [List.foldr_nil, ends, Output.Yielded.lines, World.printing_nil]
      rfl
  | cons record rest inductionHypothesis =>
      rw [List.foldr_cons, Production.stream, Output.Yielded.lines]
      cases written : Json.write .line record with
      | error fault =>
          rw [Program.runIn_bind_of_error (printObject_of_error world written), World.printing_nil]
          rfl
      | ok line =>
          rw [Program.runIn_bind_of_ok (printObject_of_ok world written), inductionHypothesis,
            World.printing_printing]
          rfl

/-- A format of the whole list prints all of its texts or none. -/
theorem printRecords_runIn {format : Output.Format} (gathers : format ≠ .jsonl) :
    (printRecords (.text format.name) records).runIn world =
      (behindTexts (format.yields records none) (.ok ()),
        world.printing (format.yields records none).texts) := by
  have yields_eq : format.yields records none = .ofResult (format.chunks records none) := by
    cases format with
    | jsonl => exact absurd rfl gathers
    | _ => rfl
  rw [yields_eq]
  unfold printRecords
  rw [Output.ofValue_name]
  cases written : format.chunks records none with
  | error fault =>
      have fails : (Program.ofFault (format.chunks records none) : Program Time _).runIn world =
          (.error (.fault fault), world) := by
        rw [written]
        rfl
      exact (Program.runIn_bind_of_error fails _).trans
        (congrArg (Prod.mk _) (World.printing_nil world).symm)
  | ok chunks =>
      have returns : (Program.ofFault (format.chunks records none) : Program Time _).runIn world =
          (.ok chunks, world) := by
        rw [written]
        rfl
      exact (Program.runIn_bind_of_ok returns _).trans (Program.runIn_printLines chunks world)

theorem isStreamed_name (format : Output.Format) :
    isStreamed (.text format.name) = decide (format = .jsonl) := by
  unfold isStreamed
  rw [Output.ofValue_name]
  cases format <;> rfl

/-- What is shown of what a format has made: in a quiet run nothing, so that nothing stops it. -/
def shownYielded (quiet : Bool) (yielded : Output.Yielded) : Output.Yielded :=
  if quiet then ⟨[], none⟩ else yielded

/-- **Printing records while they are made and printing them at the end come to the same**, where they
end or break off with a problem.  What the format makes of the records is printed first.  Then the
problem ends the printing, whether it was let through at once or put off. -/
theorem publish_runIn (format : Output.Format) :
    ((Production.of records problem).publish quiet (.text format.name)).runIn world =
      (behindTexts (shownYielded quiet (format.yields records none)) (behindRecords problem),
        world.printing (shownYielded quiet (format.yields records none)).texts) := by
  unfold Production.publish shownYielded
  cases quiet with
  | true =>
      rw [if_pos rfl, if_pos rfl, World.printing_nil]
      exact consume_runIn world
  | false =>
      rw [if_neg Bool.false_ne_true, if_neg Bool.false_ne_true, isStreamed_name]
      by_cases streams : format = .jsonl
      · subst streams
        exact stream_runIn world fun world => by cases problem <;> rfl
      · rw [decide_eq_false streams, if_neg Bool.false_ne_true, gather_of]
        refine (Program.runIn_bind_of_ok (Program.runIn_ofResult _ _) _).trans ?_
        have prints := @printRecords_runIn Time world _ records format streams
        cases stops : (format.yields records none).stopped with
        | some fault =>
            rw [behindTexts, stops] at prints ⊢
            exact Program.runIn_bind_of_error prints _
        | none =>
            rw [behindTexts, stops] at prints ⊢
            refine (Program.runIn_bind_of_ok prints _).trans ?_
            cases problem <;> rfl

/-- Any other failure is passed on at once by either loop.  Records that were printed while they were
made stay printed; those that were being gathered are lost. -/
theorem publish_of_fault (format : Output.Format) (fault : Fault) :
    ((records.foldr Production.yields (.breaksOff (.fault fault))).publish false
        (.text format.name)).runIn world =
      if format = .jsonl then
        (behindTexts (.lines records) (.error (.fault fault)),
          world.printing (Output.Yielded.lines records).texts)
      else
        (.error (.fault fault), world) := by
  have gathers : (records.foldr Production.yields (.breaksOff (.fault fault))).gather =
      .error (.fault fault) := by
    induction records with
    | nil => rfl
    | cons record rest inductionHypothesis =>
        rw [List.foldr_cons, Production.gather, inductionHypothesis]
        rfl
  unfold Production.publish
  rw [if_neg Bool.false_ne_true, isStreamed_name]
  by_cases streams : format = .jsonl
  · rw [decide_eq_true streams, if_pos rfl, if_pos streams]
    exact stream_runIn world fun _ => rfl
  · rw [decide_eq_false streams, if_neg Bool.false_ne_true, if_neg streams, gathers]
    exact Program.runIn_bind_of_error rfl _

end Productions

/-! ## How a command ends -/

section Publishing

variable {format : Output.Format} {records : List Value} {chunks : List String}
  {command : Program Time Result} {middle : World Time}

theorem conclude_of_error {shape : Value} {failure : Failure} (writable : IsWritable failure)
    (fails : command.runIn world = (.error failure, middle)) :
    (conclude progress quiet shape command).runIn world =
      (endOf failure, (complained progress failure middle).printing
        (shownLines quiet ((errorObject? failure).toList.map lineOf))) := by
  have attempted : (Program.attempt do
      let result ← command
      result.finish quiet shape).runIn world = (.ok (.error failure), middle) := by
    rw [Program.runIn_attempt, Program.runIn_bind_of_error fails]
  exact (Program.runIn_bind_of_ok attempted _).trans (explain_runIn progress quiet middle writable)

/-- What becomes of a command that returns. -/
theorem conclude_of_finish {shape : Value} {result : Result} {ending : Except Failure Int}
    {after : World Time} (returns : command.runIn world = (.ok result, middle))
    (finishes : (result.finish quiet shape).runIn middle = (ending, after)) :
    (conclude progress quiet shape command).runIn world =
      match ending with
      | .ok code => (.ok code, after)
      | .error failure => (explain progress quiet failure).runIn after := by
  have attempted : (Program.attempt do
      let result ← command
      result.finish quiet shape).runIn world = (.ok ending, after) := by
    rw [Program.runIn_attempt, Program.runIn_bind_of_ok returns, finishes]
  refine (Program.runIn_bind_of_ok attempted _).trans ?_
  cases ending <;> rfl

theorem finish_runIn (problem : Option Problem) :
    ((Result.report (.of records problem)).finish quiet (.text format.name)).runIn world =
      ((behindTexts (shownYielded quiet (format.yields records none)) (behindRecords problem)).map
          fun _ => (Failure.ExitCode.success : Int),
        world.printing (shownYielded quiet (format.yields records none)).texts) := by
  unfold Result.finish
  rw [Program.runIn_bind, publish_runIn]
  cases behindTexts (shownYielded quiet (format.yields records none)) (behindRecords problem) <;> rfl

theorem shownYielded_of_chunks (written : format.chunks records none = .ok chunks) :
    shownYielded quiet (format.yields records none) = ⟨shownLines quiet chunks, none⟩ := by
  rw [Output.Format.yields_of_chunks written]
  cases quiet <;> rfl

/-- A command that returns records without a problem ends well, after its records. -/
theorem conclude_of_records (written : format.chunks records none = .ok chunks)
    (returns : command.runIn world = (.ok (.report (.of records none)), middle)) :
    (conclude progress quiet (.text format.name) command).runIn world =
      (.ok Failure.ExitCode.success, middle.printing (shownLines quiet chunks)) := by
  have finishes := @finish_runIn Time quiet middle _ format records none
  rw [shownYielded_of_chunks quiet written] at finishes
  exact conclude_of_finish progress quiet world returns finishes

/-- A command that returns records with a problem behind them ends with it, after its records. -/
theorem conclude_of_problem {problem : Problem} (written : format.chunks records none = .ok chunks)
    (returns : command.runIn world = (.ok (.report (.of records (some problem))), middle)) :
    (conclude progress quiet (.text format.name) command).runIn world =
      (explain progress quiet (.problem problem)).runIn
        (middle.printing (shownLines quiet chunks)) := by
  have finishes := @finish_runIn Time quiet middle _ format records (some problem)
  rw [shownYielded_of_chunks quiet written] at finishes
  exact conclude_of_finish progress quiet world returns finishes

/-- Where a fault stops the format, the run ends with the fault, after what was made before it. -/
theorem conclude_of_stopped {problem : Option Problem} {fault : Fault}
    (stops : (format.yields records none).stopped = some fault)
    (returns : command.runIn world = (.ok (.report (.of records problem)), middle)) :
    (conclude progress false (.text format.name) command).runIn world =
      (explain progress false (.fault fault)).runIn
        (middle.printing (format.yields records none).texts) := by
  have finishes := @finish_runIn Time false middle _ format records problem
  rw [shownYielded, if_neg Bool.false_ne_true, behindTexts, stops] at finishes
  exact conclude_of_finish progress false world returns finishes

end Publishing
end Ends
end CommandLine
end Provenance
