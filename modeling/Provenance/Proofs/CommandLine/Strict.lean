import Provenance.Proofs.Assembly.Gaps
import Provenance.Proofs.CommandLine.Publish
import Provenance.Proofs.Settings.Load

/-!
Contract: which records a strict run ends well with.

Owns:
- `explain_keeps`, the exit code of a run that a failure ends;
- `run_of_success`: a strict run that ends well has made a record without a gap;
- `gaps_reported`: which gaps of a record are passed over in silence, by an assembly and by a strict
  run.

Does **not** own: what else a run prints.
-/

set_option autoImplicit false

namespace Provenance

open Data (Value)
open Failure (Problem GapField)
open Program (Keeps)
open World (Timekeeping HasScript Stable stable_hasScript stable_follows lasting_hasScript)

namespace CommandLine

open Assembly (Service ReportsGaps queryOf)

variable {world after : World Value} {code : Int}

/-! ## What a run says -/

section Saying

variable {invariant : World Value → Prop} {ends : Failure → Prop}

theorem printLine_keeps (stable : Stable invariant) (text : String) :
    Keeps invariant (Program.printLine text) (fun _ => True) ends :=
  .record stable fun _ isCall => by cases isCall

theorem reportLine_keeps (stable : Stable invariant) (text : String) :
    Keeps invariant (Program.reportLine text) (fun _ => True) ends :=
  .record stable fun _ isCall => by cases isCall

theorem say_keeps (stable : Stable invariant) (progress : Progress) (message : String) :
    Keeps invariant (progress.say message) (fun _ => True) ends := by
  unfold Progress.say
  split
  · exact reportLine_keeps stable _
  · exact .pure trivial

theorem warnOfGap_keeps (stable : Stable invariant) (progress : Progress) (gap : Option Problem) :
    Keeps invariant (warnOfGap progress gap) (fun _ => True) ends := by
  cases gap with
  | none => exact .pure trivial
  | some gap => exact say_keeps stable progress _

theorem printTable_keeps (stable : Stable invariant) (record : Record) :
    Keeps invariant (printTable record) (fun _ => True) Failure.Shows :=
  (Keeps.ofFault Failure.shows_fault).bind fun lines _ =>
    .forM (printLine_keeps stable) lines

theorem printObject_keeps (stable : Stable invariant) (object : Value) :
    Keeps invariant (printObject object) (fun _ => True) Failure.Shows :=
  (Keeps.ofFault Failure.shows_fault).bind fun line _ => printLine_keeps stable line

theorem printRecords_keeps (stable : Stable invariant) (format : Value) (records : List Value) :
    Keeps invariant (printRecords format records) (fun _ => True) Failure.Shows :=
  (Keeps.ofFault Failure.shows_fault).bind fun _ _ =>
    (Keeps.ofFault Failure.shows_fault).bind fun chunks _ => .forM (printLine_keeps stable) chunks

/-- A failure that ends a run gives it its exit code. -/
theorem explain_keeps (stable : Stable invariant) (progress : Progress) (quiet : Bool)
    (failure : Failure) :
    Keeps invariant (explain progress quiet failure) (fun code => code = failure.exitCode)
      Failure.Shows := by
  have complains : ∀ message, Keeps invariant (progress.complain message) (fun _ => True)
      Failure.Shows := fun message => reportLine_keeps stable _
  have prints : ∀ object, Keeps invariant (printObject object) (fun _ => True) Failure.Shows :=
    printObject_keeps stable
  unfold explain
  split
  · refine (complains _).bind fun _ _ => ?_
    simp only
    split
    · exact (prints _).bind fun _ _ => .pure rfl
    · exact .pure rfl
  · exact (complains _).bind fun _ _ => .pure rfl
  · split
    · refine (complains _).bind fun _ _ => ?_
      simp only
      split
      · exact (prints _).bind fun _ _ => .pure rfl
      · exact .pure rfl
    · exact .fail (Failure.shows_fault _)

end Saying

/-! ## Failures of a run that describes -/

section Describing

variable (script : Git.Script Value) (directory : String) (strict located table : Bool)
  (progress : Progress) (quiet : Bool) (format : Value)

theorem assembled_keeps :
    Keeps (HasScript script) (assembled directory) (fun _ => True) Failure.Shows :=
  (Settings.load_keeps (stable_hasScript script)).bind fun _ _ =>
    (Keeps.ofFault Failure.shows_fault).bind fun service _ =>
      (service.assembleAlong_keeps (lasting_hasScript script) directory _ none).bind fun _ _ => .pure trivial

/-- What a strict run ends with shows in its exit code. -/
theorem shows_of_strictProblem {gap : Option Problem} {missing : List String} {problem : Problem}
    (ends : strictProblem? strict gap missing = some problem) :
    Failure.Shows (.problem problem) := by
  unfold strictProblem? at ends
  split at ends
  · obtain ⟨gap, -, rfl⟩ := Option.map_eq_some_iff.mp ends
    exact (by decide : (Failure.ExitCode.partialSuccess : Int) ≠ 0)
  · cases ends

/-- Whether the failure that breaks a production off, if one does, shows in the exit code. -/
def Production.Shows : Production → Prop
  | .ends => True
  | .breaksOff failure => Failure.Shows failure
  | .yields _ rest => rest.Shows

theorem Production.shows_of {records : List Value} {problem : Option Problem}
    (shows : ∀ found, problem = some found → Failure.Shows (.problem found)) :
    (Production.of records problem).Shows := by
  induction records with
  | nil =>
      cases problem with
      | none => trivial
      | some problem => exact shows problem rfl
  | cons record rest inductionHypothesis => exact inductionHypothesis

/-- Whether what breaks off the production that a command leaves shows in the exit code. -/
def Result.Shows (result : Result) : Prop :=
  ∀ produced, result = .report produced → produced.Shows

theorem describe_keeps :
    Keeps (HasScript script) (describe directory strict located table progress) Result.Shows
      Failure.Shows := by
  have stable := stable_hasScript script
  refine (say_keeps stable progress _).bind fun _ _ =>
    (assembled_keeps script directory).bind fun (record, gap) _ =>
      (warnOfGap_keeps stable progress gap).bind fun _ _ => ?_
  simp only
  split
  · refine (printTable_keeps stable _).bind fun _ _ => ?_
    cases ends : strictProblem? strict gap record.missingFields with
    | some problem => exact .fail (shows_of_strictProblem strict ends)
    | none => exact .pure fun _ same => by cases same
  · refine .pure fun produced same => ?_
    obtain rfl := Result.report.inj same
    exact Production.shows_of fun _ ends => shows_of_strictProblem strict ends

section Publishing

variable {invariant : World Value → Prop} {produced : Production}

theorem consume_keeps (shows : produced.Shows) :
    Keeps invariant produced.consume (fun _ => True) Failure.Shows := by
  induction produced with
  | ends => exact .pure trivial
  | breaksOff failure => exact .fail shows
  | yields record rest inductionHypothesis => exact inductionHypothesis shows

theorem stream_keeps (stable : Stable invariant) (shows : produced.Shows) :
    Keeps invariant produced.stream (fun _ => True) Failure.Shows := by
  induction produced with
  | ends => exact .pure trivial
  | breaksOff failure => exact .fail shows
  | yields record rest inductionHypothesis =>
      exact (printObject_keeps stable record).bind fun _ _ => inductionHypothesis shows

/-- What is put off shows if it ends the run after all, and so does what is not put off. -/
theorem gather_keeps (shows : produced.Shows) :
    Keeps invariant (Program.ofResult produced.gather)
      (fun gathered => ∀ found, gathered.2 = some found → Failure.Shows (.problem found))
      Failure.Shows := by
  induction produced with
  | ends => exact .pure fun _ absent => by cases absent
  | breaksOff failure =>
      cases failure with
      | problem problem => exact .pure fun _ same => Option.some.inj same ▸ shows
      | fault fault => exact .fail shows
  | yields record rest inductionHypothesis =>
      have gathers := inductionHypothesis shows
      rw [Production.gather, ← Program.map_ofResult]
      exact gathers.map fun _ deferred => deferred

theorem publish_keeps (stable : Stable invariant) (shows : produced.Shows) (quiet : Bool)
    (format : Value) :
    Keeps invariant (produced.publish quiet format) (fun _ => True) Failure.Shows := by
  unfold Production.publish
  split
  · exact consume_keeps shows
  · split
    · exact stream_keeps stable shows
    · refine (gather_keeps shows).bind fun (records, deferred) severe => ?_
      refine (printRecords_keeps stable format records).bind fun _ _ => ?_
      cases deferred with
      | none => exact .pure trivial
      | some problem => exact .fail (severe problem rfl)

end Publishing

theorem finish_keeps {result : Result} (shows : result.Shows) :
    Keeps (HasScript script) (result.finish quiet format) (fun _ => True) Failure.Shows := by
  have stable := stable_hasScript script
  cases result with
  | done => exact .pure trivial
  | misuse error =>
      have reported : Keeps (HasScript script) (Program.record (.reported error.text))
          (fun _ => True) Failure.Shows := .record stable fun _ isCall => by cases isCall
      exact reported.bind fun _ _ => .pure trivial
  | report produced =>
      exact (publish_keeps stable (shows produced rfl) quiet format).bind fun _ _ => .pure trivial

end Describing

/-! ## Strict runs that end well -/

/-- A command whose run ends well has returned and has been finished. -/
theorem conclude_of_success {progress : Progress} {quiet : Bool} {format : Value}
    {command : Action Result} {world after : World Value}
    (keeps : Keeps (HasScript world.script) command Result.Shows Failure.Shows)
    (concludes : (conclude progress quiet format command).runIn world = (.ok 0, after)) :
    ∃ result middle later, command.runIn world = (.ok result, middle) ∧
      (result.finish quiet format).runIn middle = (.ok 0, later) := by
  obtain ⟨outcome, later, attempts, ends⟩ := Program.exists_of_bind_eq_ok concludes
  rw [Program.runIn_attempt] at attempts
  obtain ⟨comes, rfl⟩ := Prod.mk.inj attempts
  have runs := keeps.bind fun _ shows => finish_keeps world.script quiet format shows
  cases outcome with
  | error failure =>
      have shows := (runs world rfl).2.2 failure (Except.ok.inj comes)
      have stable : Stable fun _ : World Value => True := fun _ _ _ _ => trivial
      have code := (explain_keeps stable progress quiet failure _ trivial).2.1 0
        (congrArg Prod.fst ends)
      exact absurd code.symm shows
  | ok code =>
      obtain rfl := Except.ok.inj (congrArg Prod.fst ends)
      obtain ⟨result, middle, commands, finishes⟩ :=
        Program.exists_of_bind_eq_ok (Prod.ext (Except.ok.inj comes) rfl)
      exact ⟨result, middle, _, commands, finishes⟩

/-- Records with a problem behind them are not published without an end in it. -/
theorem not_publish_of_problem {records : List Value} {problem : Problem} {quiet : Bool}
    {format : Value} {world after : World Value} (publishes : ((Production.of records
      (some problem)).publish quiet format).runIn world = (.ok (), after)) : False := by
  unfold Production.publish at publishes
  split at publishes
  · rw [consume_runIn] at publishes
    cases publishes
  · split at publishes
    · have runs := @stream_runIn Value world _ records (.breaksOff (.problem problem)) _ fun _ => rfl
      have ends := congrArg Prod.fst (runs.symm.trans publishes)
      unfold behindTexts at ends
      dsimp only at ends
      split at ends <;> cases ends
    · rw [gather_of] at publishes
      obtain ⟨_, _, gathers, publishes⟩ := Program.exists_of_bind_eq_ok publishes
      obtain ⟨same, -⟩ := Prod.mk.inj gathers
      obtain rfl := Except.ok.inj same
      obtain ⟨_, _, -, fails⟩ := Program.exists_of_bind_eq_ok publishes
      cases fails

/-- A strict command that leaves nothing to complain about has made a record without a gap, and has
called nothing before. -/
theorem describe_of_success {directory : String} {located table : Bool} {progress : Progress}
    {quiet : Bool} {format : Value} {result : Result} {world middle after : World Value}
    {code : Int}
    (describes : (describe directory true located table progress).runIn world =
      (.ok result, middle))
    (finishes : (result.finish quiet format).runIn middle = (.ok code, after)) :
    ∃ record start later, world.Follows start [] ∧
      (assembled directory).runIn start = (.ok (record, none), later) := by
  obtain ⟨_, start, speaks, describes⟩ := Program.exists_of_bind_eq_ok describes
  obtain ⟨⟨record, gap⟩, later, assembles, describes⟩ := Program.exists_of_bind_eq_ok describes
  have follows : world.Follows start [] := by
    have keeps := @say_keeps _ Failure.Shows (stable_follows world) progress
      ("Detecting git metadata for " ++ directory ++ "...") world (.refl world)
    rw [speaks] at keeps
    exact keeps.1
  cases gap with
  | none => exact ⟨record, start, later, follows, assembles⟩
  | some gap =>
      obtain ⟨_, warned, -, describes⟩ := Program.exists_of_bind_eq_ok describes
      cases table with
      | true =>
          obtain ⟨_, _, -, fails⟩ := Program.exists_of_bind_eq_ok describes
          cases fails
      | false =>
          obtain ⟨same, -⟩ := Prod.mk.inj describes
          obtain rfl := Except.ok.inj same
          obtain ⟨_, _, publishes, -⟩ := Program.exists_of_bind_eq_ok finishes
          exact (not_publish_of_problem publishes).elim

/-! ## From the words of a run to its command -/

section Words

variable {invariant : World Value → Prop}

theorem prepare_keeps (stable : Stable invariant) (debug : Bool) :
    Keeps invariant (prepare debug) (fun _ => True) Failure.Shows := by
  have shown : ∀ level layout, Keeps invariant
      (Program.record (.logShown level layout) : Action Unit) (fun _ => True) Failure.Shows :=
    fun _ _ => .record stable fun _ isCall => by cases isCall
  refine (Settings.load_keeps stable).bind fun settings _ => ?_
  refine ((Keeps.ofFault Failure.shows_fault).bind fun (level, layout) _ =>
    shown level layout).bind fun _ _ => ?_
  split
  · exact .record stable fun _ isCall => by cases isCall
  · exact .pure trivial

theorem chosenFormat_keeps (stable : Stable invariant) (named : Option String) :
    Keeps invariant (chosenFormat named) (fun _ => True) Failure.Shows := by
  refine (Settings.load_keeps stable).bind fun settings _ =>
    (Keeps.ofFault Failure.shows_fault).bind fun part _ =>
      (Keeps.ofFault Failure.shows_fault).bind fun default _ => ?_
  cases named with
  | some name => exact .pure trivial
  | none => exact Keeps.world.bind fun _ _ => .ofFault Failure.shows_fault

theorem current_keeps (known : Option Progress) (isEnabled : Option Bool) :
    Keeps invariant (Progress.current known isEnabled) (fun _ => True) Failure.Shows := by
  have starts : ∀ isEnabled hasColours, Keeps invariant
      (Progress.start isEnabled hasColours : Action Progress) (fun _ => True) Failure.Shows :=
    fun _ _ => Keeps.world.bind fun _ _ => .pure trivial
  unfold Progress.current
  split
  · exact .pure trivial
  · exact Keeps.world.bind fun _ _ => starts _ _
  · exact starts _ _

end Words

/-- A strict run that ends well has made a record without a gap, and has called nothing before. -/
theorem run_of_success {words rest : List String} {switches : Words} {directory : String}
    {located table : Bool} {manner : Manner} {world after : World Value}
    (leads : Entry.read .root words = .ok (.command switches .describe rest))
    (asks : Request.read world.files world.cwd .describe rest =
      .ok (.describe directory true located table manner))
    (succeeds : (run words).runIn world = (.ok 0, after)) :
    ∃ record start later, world.Follows start [] ∧
      (assembled directory).runIn start = (.ok (record, none), later) := by
  have stable := stable_follows world
  unfold run enter at succeeds
  rw [leads] at succeeds
  obtain ⟨_, prepared, prepares, succeeds⟩ := Program.exists_of_bind_eq_ok succeeds
  have followsPrepared := (prepare_keeps stable (switches.has .debug) world (.refl world)).1
  rw [prepares] at followsPrepared
  have obeyed : (obey (.describe directory true located table manner)).runIn prepared =
      (.ok 0, after) := by
    rw [← followsPrepared.files, ← followsPrepared.cwd] at asks
    rw [if_neg (by decide), runCommand, Program.runIn_bind_of_ok (Program.runIn_world prepared),
      asks] at succeeds
    exact succeeds
  obtain ⟨format, chosen, chooses, produces⟩ := Program.exists_of_bind_eq_ok obeyed
  have followsChosen := (chosenFormat_keeps stable manner.format prepared followsPrepared).1
  rw [chooses] at followsChosen
  obtain ⟨progress, begun, begins, concludes⟩ := Program.exists_of_bind_eq_ok produces
  have followsBegun := (@current_keeps (fun current => world.Follows current []) none
    (if manner.verbose then some true else none) chosen followsChosen).1
  rw [begins] at followsBegun
  obtain ⟨result, middle, later, describes, finishes⟩ :=
    conclude_of_success (describe_keeps begun.script directory true located table progress)
      concludes
  obtain ⟨record, start, later, follows, assembles⟩ := describe_of_success describes finishes
  exact ⟨record, start, later, by simpa using followsBegun.trans follows, assembles⟩

/-! ## No silent gaps -/

/-- A record is made by the service that the settings of a world describe, and nothing has been
called before. -/
def IsMade (world : World Value) (directory : String) (service kept : Service Value)
    (record : Record) : Prop :=
  ∃ settings start middle later, world.Follows start [] ∧
    Settings.load.runIn start = (.ok settings, middle) ∧
      Service.ofSettings none settings = .ok service ∧
        (service.assemble directory none).runIn middle = (.ok (kept, record), later)

theorem reportsGaps_of_assembleAlong {Time : Type} [Timekeeping Time] {service kept : Service Time}
    {world after : World Time} {schedule : Assembly.Pool.Schedule} {directory : String}
    {limit : Option Time} {record : Record}
    (assembles : (service.assembleAlong schedule directory limit).runIn world =
      (.ok (kept, record), after)) :
    ReportsGaps service world.script kept.lastErrors record := by
  have keeps :=
    (service.assembleAlong_keeps (lasting_hasScript world.script) directory schedule limit) world rfl
  exact Assembly.reportsGaps_of_isToldBy (keeps.2.1 _ (congrArg Prod.fst assembles))

theorem isMade_of_assembled {directory : String} {record : Record} {gap : Option Problem}
    {world start later : World Value} (follows : world.Follows start [])
    (assembles : (assembled directory).runIn start = (.ok (record, gap), later)) :
    ∃ service kept, IsMade world directory service kept record ∧ kept.warning? = gap ∧
      ReportsGaps service world.script kept.lastErrors record := by
  obtain ⟨settings, middle, loads, rest⟩ := Program.exists_of_bind_eq_ok assembles
  obtain ⟨service, _, describes, rest⟩ := Program.exists_of_bind_eq_ok rest
  obtain ⟨isService, rfl⟩ := Program.eq_ok_of_ofFault describes
  obtain ⟨⟨kept, made⟩, later, makes, returns⟩ := Program.exists_of_bind_eq_ok rest
  obtain ⟨rfl, rfl⟩ := Prod.mk.inj (Except.ok.inj (congrArg Prod.fst returns))
  have script_eq : middle.script = world.script := by
    have keeps := (Settings.load_keeps (stable_hasScript world.script) start follows.script).1
    rw [loads] at keeps
    exact keeps
  refine ⟨service, kept, ⟨settings, start, middle, later, follows, loads, isService, makes⟩, rfl,
    ?_⟩
  rw [← script_eq]
  exact reportsGaps_of_assembleAlong makes

/-- **Which gaps of a record are passed over in silence.**  In whatever order an assembly asks, a
field of the record that it returns is empty just if a gap of it is reported or its answer is
overlooked, and the time is missing just if its answer is.  A strict run ends well only if the
answers of all fields that its record lacks are overlooked. -/
theorem gaps_reported (directory : String) :
    (∀ (Time : Type) [Timekeeping Time] (service kept : Service Time) (world after : World Time)
        (schedule : Assembly.Pool.Schedule) (limit : Option Time) (record : Record),
      (service.assembleAlong schedule directory limit).runIn world = (.ok (kept, record), after) →
        ReportsGaps service world.script kept.lastErrors record) ∧
      ∀ (words rest : List String) (switches : Words) (located table : Bool) (manner : Manner)
          (world after : World Value),
        Entry.read .root words = .ok (.command switches .describe rest) →
          Request.read world.files world.cwd .describe rest =
              .ok (.describe directory true located table manner) →
            (run words).runIn world = (.ok 0, after) →
              ∃ service kept record, IsMade world directory service kept record ∧
                ∀ field, record.lacks field = true →
                  service.Overlooks world.script (queryOf field) := by
  constructor
  · intro Time _ service kept world after schedule limit record assembles
    exact reportsGaps_of_assembleAlong assembles
  · intro words rest switches located table manner world after leads asks succeeds
    obtain ⟨record, start, later, follows, assembles⟩ := run_of_success leads asks succeeds
    obtain ⟨service, kept, isMade, noWarning, reports⟩ := isMade_of_assembled follows assembles
    refine ⟨service, kept, record, isMade, fun field lacks => ?_⟩
    have noGap : kept.lastErrors = [] := List.getLast?_eq_none_iff.mp noWarning
    rcases (reports.fields field).mp lacks with ⟨problem, member, -⟩ | overlooks
    · rw [noGap] at member
      cases member
    · exact overlooks

/-! ## Gaps that are reported, and some that are not -/

/-- A world in which every call but some prints `/`. -/
def worldAnswering (answers : List (String × Git.Answer Value)) : World Value where
  files := ⟨[(["git"], .file [] true)]⟩
  cwd := []
  environment := [("HOME", "/"), ("PATH", "/")]
  script := { answers := answers, otherwise := { output := [47], takes := .int 0 } }
  clock := .int 0

/-- A world in which the commit cannot be found out. -/
def worldWithoutHash : World Value :=
  worldAnswering [("rev-parse HEAD", { code := 128, takes := .int 0 })]

/-- A world in which version control prints no branch, and a blank line before the remote and before
the time. -/
def worldOverlooked : World Value :=
  worldAnswering [
    ("rev-parse --abbrev-ref HEAD", { takes := .int 0 }),
    ("config --get remote.origin.url", { output := [10, 47], takes := .int 0 }),
    ("log -1 --format=%ct", { output := [10, 49], takes := .int 0 })
  ]

def plainService : Service Value where
  client := { timeout := .int 30 }

/-- An assembly that reports one gap, and a strict run in a world without gaps. -/
theorem gaps_reported_answered :
    (∃ kept record after,
      (plainService.assemble "/" none).runIn worldWithoutHash = (.ok (kept, record), after) ∧
        ReportsGaps plainService worldWithoutHash.script kept.lastErrors record) ∧
      ∃ after service kept record,
        (run ["meta", "--strict", "-q"]).runIn (worldAnswering []) = (.ok 0, after) ∧
          IsMade (worldAnswering []) "." service kept record ∧
            ∀ field, record.lacks field = true →
              service.Overlooks (worldAnswering []).script (queryOf field) := by
  constructor
  · have returns : ((plainService.assemble "/" none).runIn worldWithoutHash).1.toOption.isSome := by
      decide +kernel
    obtain ⟨⟨kept, record⟩, after, assembles, -⟩ := Program.exists_of_toOption returns
    exact ⟨kept, record, after, assembles, (gaps_reported "/").1 _ _ _ _ _ _ _ _ assembles⟩
  · have returns : ((run ["meta", "--strict", "-q"]).runIn (worldAnswering [])).1.toOption =
        some 0 := by decide +kernel
    obtain ⟨code, after, succeeds, code_eq⟩ := Program.exists_of_toOption (by rw [returns]; rfl)
    rw [returns] at code_eq
    obtain rfl := Option.some.inj code_eq
    obtain ⟨service, kept, record, isMade, accounted⟩ :=
      (gaps_reported ".").2 ["meta", "--strict", "-q"] ["--strict", "-q"] _ false false
        { quiet := true } (worldAnswering []) after rfl rfl succeeds
    exact ⟨after, service, kept, record, succeeds, isMade, accounted⟩

/-- A remote, a branch and a time may be missing without a gap: nothing is reported where their
answers are overlooked, and a strict run ends well. -/
theorem gaps_not_reported_overlooked :
    (∃ kept record after,
      (plainService.assemble "/" none).runIn worldOverlooked = (.ok (kept, record), after) ∧
        record.missingFields = ["remote_url", "branch"] ∧ record.timestamp = "" ∧
          kept.lastErrors = [] ∧ kept.warning? = none) ∧
      ∃ after, (run ["meta", "--strict", "-q"]).runIn worldOverlooked = (.ok 0, after) := by
  have returns : ((plainService.assemble "/" none).runIn worldOverlooked).1.toOption.isSome := by
    decide +kernel
  have seen : ((plainService.assemble "/" none).runIn worldOverlooked).1.toOption.map
      (fun found => (found.2.missingFields, found.2.timestamp, found.1.lastErrors)) =
        some (["remote_url", "branch"], "", []) := by
    decide +kernel
  have succeeds : ((run ["meta", "--strict", "-q"]).runIn worldOverlooked).1.toOption = some 0 := by
    decide +kernel
  constructor
  · obtain ⟨⟨kept, record⟩, after, assembles, found⟩ := Program.exists_of_toOption returns
    rw [found] at seen
    obtain ⟨missing, seen⟩ := Prod.mk.inj (Option.some.inj seen)
    obtain ⟨timeless, errors⟩ := Prod.mk.inj seen
    have errors : kept.lastErrors = [] := errors
    refine ⟨kept, record, after, assembles, missing, timeless, errors, ?_⟩
    rw [Service.warning?, errors]
    rfl
  · obtain ⟨code, after, runs, code_eq⟩ := Program.exists_of_toOption (by rw [succeeds]; rfl)
    obtain rfl := Option.some.inj (code_eq.symm.trans succeeds)
    exact ⟨after, runs⟩

end CommandLine
end Provenance
