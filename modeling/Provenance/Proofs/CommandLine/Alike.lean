import Provenance.Proofs.Assembly.Alike
import Provenance.Proofs.CommandLine.Publish
import Provenance.Proofs.Settings.Alike

/-!
Contract: commands that run alike in two worlds.

Owns:
- `Settled` and `Prepared`, worlds that are alike in what comes before a command: the log, the format
  and the progress;
- `described` and `describe_eq`, the part of describing that its switches have no say in;
- `described_alike` and `pin_alike`: commands up to their end, where the remotes lead to the same
  place;
- `conclude_alike` and `produce_alike`: runs that end alike, where all that is printed counts.

Does **not** own: which worlds are related.

## Two kinds of relations

What comes before the end of a command prints nothing, so it runs alike even for relations
that keep account of standard output.  The end of a command prints, so it runs alike for
relations that the same line on both sides does not break.
-/

set_option autoImplicit false

namespace Provenance

/-! ## Records that differ in the remote URL at most -/

namespace Record.Alike

variable {left right : Record} (alike : left.Alike right)

include alike

theorem missingFields_eq : left.missingFields = right.missingFields := by
  have lacks_eq : left.lacks = right.lacks := by
    funext field
    rw [alike.same]
    cases field with
    | remoteUrl => exact alike.place.isEmpty_eq
    | _ => rfl
  simp only [Record.missingFields, Record.gaps, lacks_eq]

/-- The fields that locate a directory do not name the remote URL. -/
theorem located_eq : left.located = right.located := by
  rw [alike.same]
  rfl

theorem pin_eq (reference : Reference) :
    reference.pin (some left) = reference.pin (some right) := by
  rw [alike.same]
  rfl

end Record.Alike

namespace CommandLine

open Assembly (Attuned Service)
open Data (Value)
open Failure (Problem)
open Program (Agree Alike)
open World (Even Steady)

variable {related : World Value → World Value → Prop}

/-! ## What is said -/

section Saying

variable (even : Even related)

include even

theorem say_alike (progress : Progress) (message : String) :
    Alike related Eq (progress.say message) (progress.say message) := by
  unfold Progress.say
  split
  · exact .reportLine even _
  · exact .pure rfl

theorem warnOfGap_alike (progress : Progress) (gap : Option Problem) :
    Alike related Eq (warnOfGap progress gap) (warnOfGap progress gap) := by
  cases gap with
  | none => exact .pure rfl
  | some gap => exact say_alike even progress _

end Saying

/-! ## What comes before a command -/

/-- Related worlds look the same, and the same settings hold in them. -/
structure Settled (related : World Value → World Value → Prop) : Prop extends Even related where
  loads : Alike related Eq (Settings.load : Action _) Settings.load

theorem Settled.prepare_alike (settled : Settled related) (debug : Bool) :
    Alike related Eq (prepare debug) (prepare debug) := by
  refine settled.loads.bindSame fun settings => ?_
  refine Alike.bindSame ?_ fun _ => ?_
  · refine (Alike.ofFault _).bindSame fun (level, layout) => ?_
    exact .record fun _ _ => settled.said (.logShown level layout) trivial
  · split
    · exact .record fun _ _ => settled.said (.logLevel _) trivial
    · exact .pure rfl

/-- In related worlds the same format and the same progress are chosen too. -/
structure Prepared (related : World Value → World Value → Prop) : Prop extends Settled related where
  chooses : ∀ named, Alike related Eq (chosenFormat named) (chosenFormat named)
  speaks : ∀ isEnabled, Alike related Eq (Progress.current none isEnabled : Action Progress)
    (Progress.current none isEnabled)

/-- The progress is the same where the terminal is, and the variables about it. -/
theorem current_alike (even : Even related)
    (colours : ∀ {left right}, related left right →
      left.environment.get? "NO_COLOR" = right.environment.get? "NO_COLOR")
    (wanted : ∀ {left right}, related left right →
      left.environment.get? "GITMETA_PROGRESS" = right.environment.get? "GITMETA_PROGRESS")
    (known : Option Progress) (isEnabled : Option Bool) :
    Alike related Eq (Progress.current known isEnabled : Action Progress)
      (Progress.current known isEnabled) := by
  have starts : ∀ isEnabled hasColours, Alike related Eq
      (Progress.start isEnabled hasColours : Action Progress)
      (Progress.start isEnabled hasColours) := by
    intro isEnabled hasColours
    refine .look fun left right kept => ?_
    rw [colours kept, even.isTerminal kept]
    exact .pure rfl
  unfold Progress.current
  split
  · exact .pure rfl
  · refine .look fun left right kept => ?_
    have wanted_eq : Progress.wanted? left.environment = Progress.wanted? right.environment := by
      rw [Progress.wanted?, wanted kept, ← Progress.wanted?]
    rw [wanted_eq]
    exact starts _ _
  · exact starts _ _

section Looking

variable (steady : Steady related)

include steady

theorem settled_of_steady : Settled related :=
  ⟨steady.toEven, Settings.load_alike steady⟩

theorem prepare_alike (debug : Bool) : Alike related Eq (prepare debug) (prepare debug) :=
  (settled_of_steady steady).prepare_alike debug

theorem chosenFormat_alike (named : Option String) :
    Alike related Eq (chosenFormat named) (chosenFormat named) := by
  refine (Settings.load_alike steady).bindSame fun settings =>
    (Alike.ofFault _).bindSame fun part => (Alike.ofFault _).bindSame fun default => ?_
  cases named with
  | some name => exact .pure rfl
  | none =>
      refine .look fun left right kept => ?_
      rw [steady.environment kept]
      exact .ofFault _

/-- Worlds that look the same are alike in all that comes before a command. -/
theorem prepared_of_steady : Prepared related where
  toSettled := settled_of_steady steady
  chooses := chosenFormat_alike steady
  speaks := current_alike steady.toEven (fun kept => by rw [steady.environment kept])
    (fun kept => by rw [steady.environment kept]) none

end Looking

/-! ## Commands that make records -/

/-- What describing a directory finds out, whatever is to be shown of it. -/
def described (directory : String) (progress : Progress) : Action (Record × Option Problem) := do
  progress.say ("Detecting git metadata for " ++ directory ++ "...")
  let (record, gap) ← assembled directory
  warnOfGap progress gap
  pure (record, gap)

/-- What is printed of what has been found out, unless it is a table. -/
def shownProduction (strict located : Bool) (found : Record × Option Problem) : Production :=
  .of [(if located then found.1.located else found.1).toValue]
    (strictProblem? strict found.2 found.1.missingFields)

/-- What describing does with what has been found out. -/
def showing (strict located table : Bool) (found : Record × Option Problem) : Action Result :=
  if table then do
    printTable (if located then found.1.located else found.1)
    match strictProblem? strict found.2 found.1.missingFields with
    | some problem => Program.fail (.problem problem)
    | none => pure .done
  else
    pure (.report (shownProduction strict located found))

theorem describe_eq (directory : String) (strict located table : Bool) (progress : Progress) :
    describe directory strict located table progress =
      described directory progress >>= showing strict located table := by
  simp only [describe, described, bind_assoc, pure_bind]
  rfl

/-- Results of commands that differ in their records at most.  They are orderly: what is printed of
them has a text in every format, and the exit code of the problem is listed. -/
inductive Result.Alike : Result → Result → Prop where
  | done : Result.Alike .done .done
  | misuse (error : UsageError) : Result.Alike (.misuse error) (.misuse error)
  | report {left right : List Value} {problem : Option Problem}
      (leftRecords : ∀ record ∈ left, IsRecord record)
      (rightRecords : ∀ record ∈ right, IsRecord record)
      (listed : ∀ found, problem = some found → (Failure.problem found).IsListed) :
      Result.Alike (.report (.of left problem)) (.report (.of right problem))

theorem isListed_of_strictProblem {strict : Bool} {gap : Option Problem} {missing : List String}
    {problem : Problem} (ends : strictProblem? strict gap missing = some problem) :
    (Failure.problem problem).IsListed := by
  unfold strictProblem? at ends
  split at ends
  · obtain ⟨gap, -, rfl⟩ := Option.map_eq_some_iff.mp ends
    trivial
  · cases ends

section Making

variable {same : Record → Record → Prop} {directory : String}

/-- Under the same settings, records are made alike wherever assemblies end alike. -/
theorem Settled.assembled_alike (settled : Settled related)
    (assembles : ∀ service : Service Value, Alike related
      (fun left right => left.1 = right.1 ∧ same left.2 right.2)
      (service.assemble directory none) (service.assemble directory none)) :
    Alike related (fun left right => same left.1 right.1 ∧ left.2 = right.2)
      (assembled directory) (assembled directory) := by
  refine settled.loads.bindSame fun settings => (Alike.ofFault _).bindSame fun service => ?_
  refine (assembles service).bind fun left right ends => ?_
  obtain ⟨kept, record⟩ := left
  obtain ⟨_, other⟩ := right
  obtain ⟨rfl, alike⟩ := ends
  exact .pure ⟨alike, rfl⟩

section Made

variable (even : Even related)

include even

theorem described_alike_of_made
    (makes : Alike related (fun left right => same left.1 right.1 ∧ left.2 = right.2)
      (assembled directory) (assembled directory)) (progress : Progress) :
    Alike related (fun left right => same left.1 right.1 ∧ left.2 = right.2)
      (described directory progress) (described directory progress) := by
  refine (say_alike even progress _).bindSame fun _ => makes.bind fun left right ends => ?_
  obtain ⟨record, gap⟩ := left
  obtain ⟨other, _⟩ := right
  obtain ⟨alike, rfl⟩ := ends
  exact (warnOfGap_alike even progress gap).bindSame fun _ => .pure ⟨alike, rfl⟩

theorem pin_alike_of_made
    (makes : Alike related (fun left right => left.1.Alike right.1 ∧ left.2 = right.2)
      (assembled directory) (assembled directory))
    (text : String) (asCommand : Bool) (progress : Progress) :
    Alike related (fun left right => left = right ∧ Result.Alike left right)
      (pin text directory asCommand progress) (pin text directory asCommand progress) := by
  unfold pin
  split
  · next reference _ =>
      refine makes.bind fun left right ends => ?_
      obtain ⟨record, gap⟩ := left
      obtain ⟨other, _⟩ := right
      obtain ⟨alike, rfl⟩ := ends
      refine (warnOfGap_alike even progress gap).bindSame fun _ => ?_
      rw [alike.pin_eq]
      refine (Alike.ofFault _).bindSame fun pinned => ?_
      have areRecords : ∀ record ∈ [pinnedRecord reference pinned.reference], IsRecord record :=
        List.forall_mem_singleton.mpr (isRecord_pinnedRecord _ _)
      have returns : Alike related (fun left right => left = right ∧ Result.Alike left right)
          (pure (.report (.of [pinnedRecord reference pinned.reference] none)))
          (pure (.report (.of [pinnedRecord reference pinned.reference] none))) :=
        .pure ⟨rfl, .report areRecords areRecords fun _ ends => by cases ends⟩
      dsimp only
      split
      · exact (say_alike even progress _).bindSame fun _ => returns
      · exact returns
  · exact .pure ⟨rfl, .misuse _⟩

end Made

theorem normalize_alike (urls : List String) :
    Alike related (fun left right => left = right ∧ Result.Alike left right) (normalize urls)
      (normalize urls) := by
  have areRecords : ∀ record ∈ urls.map canonicalRecord, IsRecord record := by
    intro record member
    obtain ⟨url, -, rfl⟩ := List.mem_map.mp member
    exact isRecord_canonicalRecord url
  exact .pure ⟨rfl, .report areRecords areRecords fun _ ends => by cases ends⟩

variable (attuned : Attuned related)

include attuned

theorem assembled_alike (directory : String) :
    Alike related (fun left right => left.1.Alike right.1 ∧ left.2 = right.2)
      (assembled directory) (assembled directory) :=
  (settled_of_steady attuned.toSteady).assembled_alike fun service =>
    service.assembleAlong_alike attuned _ directory none

/-- **What describing finds out is alike where the remotes lead to the same place.** -/
theorem described_alike (directory : String) (progress : Progress) :
    Alike related (fun left right => left.1.Alike right.1 ∧ left.2 = right.2)
      (described directory progress) (described directory progress) :=
  described_alike_of_made attuned.toEven (assembled_alike attuned directory) progress

theorem describe_alike (directory : String) (strict located : Bool) (progress : Progress) :
    Alike related Result.Alike (describe directory strict located false progress)
      (describe directory strict located false progress) := by
  rw [describe_eq]
  refine (described_alike attuned directory progress).bind fun left right same => ?_
  obtain ⟨record, gap⟩ := left
  obtain ⟨other, _⟩ := right
  obtain ⟨alike, rfl⟩ := same
  unfold showing shownProduction
  simp only [Bool.false_eq_true, if_false, alike.missingFields_eq]
  exact .pure (.report (List.forall_mem_singleton.mpr (isRecord_toValue _))
    (List.forall_mem_singleton.mpr (isRecord_toValue _))
    fun problem ends => isListed_of_strictProblem ends)

/-- **What pinning comes to is the same where the remotes lead to the same place.** -/
theorem pin_alike (text directory : String) (asCommand : Bool) (progress : Progress) :
    Alike related (fun left right => left = right ∧ Result.Alike left right)
      (pin text directory asCommand progress) (pin text directory asCommand progress) :=
  pin_alike_of_made attuned.toEven (assembled_alike attuned directory) text asCommand progress

end Making

/-! ## Ends of commands -/

/-- Related worlds stay related when the same is printed in both. -/
def Printable (related : World Value → World Value → Prop) : Prop :=
  ∀ {left right} (text : String), related left right →
    related (left.after (.printed text)) (right.after (.printed text))

section Ending

variable (printable : Printable related)

include printable

theorem printLine_alike (text : String) :
    Alike related Eq (Program.printLine text) (Program.printLine text) :=
  .record fun _ _ => printable _

theorem printObject_alike (object : Value) :
    Alike related Eq (printObject object) (printObject object) :=
  (Alike.ofFault _).bindSame fun line => printLine_alike printable line

theorem printRecords_alike (format : Value) (records : List Value) :
    Alike related Eq (printRecords format records) (printRecords format records) :=
  (Alike.ofFault _).bindSame fun _ => (Alike.ofFault _).bindSame fun chunks =>
    .forM (printLine_alike printable) chunks

theorem printTable_alike (record : Record) :
    Alike related Eq (printTable record) (printTable record) :=
  (Alike.ofFault _).bindSame fun lines => .forM (printLine_alike printable) lines

section Publishing

variable {problem : Option Problem}
  (listed : ∀ found, problem = some found → (Failure.problem found).IsListed)

include listed

omit printable in
theorem consume_alike (records : List Value) :
    Alike related Eq (Production.of records problem).consume
      (Production.of records problem).consume := by
  induction records with
  | nil =>
      cases problem with
      | none => exact .pure rfl
      | some problem => exact .fail (listed problem rfl)
  | cons record rest inductionHypothesis => exact inductionHypothesis

theorem stream_alike (records : List Value) :
    Alike related Eq (Production.of records problem).stream
      (Production.of records problem).stream := by
  induction records with
  | nil =>
      cases problem with
      | none => exact .pure rfl
      | some problem => exact .fail (listed problem rfl)
  | cons record rest inductionHypothesis =>
      exact (printObject_alike printable record).bindSame fun _ => inductionHypothesis

theorem publish_alike (records : List Value) (quiet : Bool) (format : Value) :
    Alike related Eq ((Production.of records problem).publish quiet format)
      ((Production.of records problem).publish quiet format) := by
  unfold Production.publish
  split
  · exact consume_alike listed records
  · split
    · exact stream_alike printable listed records
    · rw [gather_of]
      have gathers : Alike related
          (fun left right => left = (records, problem) ∧ right = (records, problem))
          (Program.ofResult (.ok (records, problem)) : Action _)
          (Program.ofResult (.ok (records, problem))) := .pure ⟨rfl, rfl⟩
      refine gathers.bind fun left right same => ?_
      obtain ⟨rfl, rfl⟩ := same
      refine (printRecords_alike printable format records).bindSame fun _ => ?_
      cases problem with
      | none => exact .pure rfl
      | some problem => exact .fail (listed problem rfl)

end Publishing

variable (even : Even related)

include even

omit printable in
theorem reportMisuse_alike (error : UsageError) :
    Alike related Eq (reportMisuse error) (reportMisuse error) :=
  Alike.bindSame (.record fun _ _ => even.said (.reported error.text) trivial) fun _ => .pure rfl

theorem finish_alike {result other : Result} (orderly : Result.Alike result other) (quiet : Bool)
    (format : Value) :
    Alike related Eq (result.finish quiet format) (result.finish quiet format) := by
  cases orderly with
  | done => exact .pure rfl
  | misuse error => exact reportMisuse_alike even error
  | report _ _ listed =>
      exact (publish_alike printable listed _ quiet format).bindSame fun _ => .pure rfl

theorem explain_alike {failure : Failure} (listed : failure.IsListed) (progress : Progress)
    (quiet : Bool) :
    Alike related Eq (explain progress quiet failure) (explain progress quiet failure) := by
  have reports : ∀ (message : String) (object : Value) (code : Int),
      Alike related Eq
        (do
          progress.complain message
          if !quiet then
            printObject object
          pure code)
        (do
          progress.complain message
          if !quiet then
            printObject object
          pure code) := by
    refine fun message object code => (Alike.reportLine even _).bindSame fun _ => ?_
    dsimp only
    split
    · exact (printObject_alike printable object).bindSame fun _ => .pure rfl
    · exact .pure rfl
  unfold explain
  split
  · exact reports _ _ _
  · exact (Alike.reportLine even _).bindSame fun _ => .pure rfl
  · split
    · exact reports _ _ _
    · exact .fail listed

/-- **A command that comes to the same ends in the same way.** -/
theorem conclude_alike {command other : Action Result}
    (alike : Alike related (fun left right => left = right ∧ Result.Alike left right) command other)
    (progress : Progress) (quiet : Bool) (format : Value) :
    Alike related Eq (conclude progress quiet format command)
      (conclude progress quiet format other) := by
  have finishes := alike.bind fun left right same => by
    obtain ⟨rfl, orderly⟩ := same
    exact finish_alike printable even orderly quiet format
  refine finishes.attempt.bind fun left right agree => ?_
  cases agree with
  | ok same =>
      subst same
      exact .pure rfl
  | error listed => exact explain_alike printable even listed progress quiet

omit even in
/-- A command that comes to the same is prepared in the same way and ends in the same way. -/
theorem Prepared.produce_alike (prepared : Prepared related) {command : Progress → Action Result}
    (alike : ∀ progress, Alike related (fun left right => left = right ∧ Result.Alike left right)
      (command progress) (command progress)) (manner : Manner) :
    Alike related Eq (produce manner command) (produce manner command) :=
  (prepared.chooses manner.format).bindSame fun format =>
    (prepared.speaks _).bindSame fun progress =>
      conclude_alike printable prepared.toEven (alike progress) progress manner.quiet format

omit even in
theorem produce_alike (steady : Steady related) {command : Progress → Action Result}
    (alike : ∀ progress, Alike related (fun left right => left = right ∧ Result.Alike left right)
      (command progress) (command progress)) (manner : Manner) :
    Alike related Eq (produce manner command) (produce manner command) :=
  (prepared_of_steady steady).produce_alike printable alike manner

end Ending

/-- What is shown of one record is orderly: it has a text in every format, or it is a table. -/
theorem showing_alike (printable : Printable related) (strict located table : Bool)
    (found : Record × Option Problem) :
    Alike related (fun left right => left = right ∧ Result.Alike left right)
      (showing strict located table found) (showing strict located table found) := by
  unfold showing shownProduction
  split
  · refine (printTable_alike printable _).bindSame fun _ => ?_
    split
    · next problem ends => exact .fail (isListed_of_strictProblem ends)
    · exact .pure ⟨rfl, .done⟩
  · exact .pure ⟨rfl, .report (List.forall_mem_singleton.mpr (isRecord_toValue _))
      (List.forall_mem_singleton.mpr (isRecord_toValue _))
      fun problem ends => isListed_of_strictProblem ends⟩

/-- **Describing comes to the same wherever the same record is made.** -/
theorem describe_same (even : Even related) (printable : Printable related) {directory : String}
    (makes : Alike related Eq (assembled directory) (assembled directory))
    (strict located table : Bool) (progress : Progress) :
    Alike related (fun left right => left = right ∧ Result.Alike left right)
      (describe directory strict located table progress)
      (describe directory strict located table progress) := by
  have made : Alike related (fun left right => left.1 = right.1 ∧ left.2 = right.2)
      (assembled directory) (assembled directory) :=
    makes.weaken fun _ _ same => ⟨by rw [same], by rw [same]⟩
  rw [describe_eq]
  refine (described_alike_of_made even made progress).bind fun left right same => ?_
  obtain rfl : left = right := Prod.ext same.1 same.2
  exact showing_alike printable strict located table left

/-- What is shown of a directory's location is the same, as a table too. -/
theorem describe_located_alike (printable : Printable related) (attuned : Attuned related)
    (directory : String) (strict table : Bool) (progress : Progress) :
    Alike related (fun left right => left = right ∧ Result.Alike left right)
      (describe directory strict true table progress)
      (describe directory strict true table progress) := by
  rw [describe_eq]
  refine (described_alike attuned directory progress).bind fun left right same => ?_
  obtain ⟨record, gap⟩ := left
  obtain ⟨other, _⟩ := right
  obtain ⟨alike, rfl⟩ := same
  have shows_eq : showing strict true table (record, gap) = showing strict true table (other, gap) := by
    unfold showing shownProduction
    simp only [if_true, alike.missingFields_eq, alike.located_eq]
  rw [shows_eq]
  exact showing_alike printable strict true table (other, gap)

end CommandLine
end Provenance
