import Provenance.Proofs.CommandLine.Course
import Provenance.Proofs.Settings.Unset

/-!
Contract: runs beside those without the variable that names a format.

Owns:
- `World.Drops`, worlds of which one lacks a variable, and what is alike in them;
- `Settings.defaultFormat`, the format that the settings ask for;
- `choose_of_unknown` and `choose_of_absent`, what is chosen beside a word that names no format and
  without a word;
- `unknown_format_ignored`, the law that such a word leaves a whole run as it is.

Does **not** own: which formats there are.

## Why the letters of the default count

Without the variable the default is read in lower case.  With a word in it that names no format the
default is taken as it stands, and a format in other letters is none.  So the law holds of defaults in
the letters of a format.
-/

set_option autoImplicit false

namespace Provenance

open Data (Value Shared Entries)
open Failure (Fault)
open Program (Alike)
open World (SameView)

/-! ## Worlds of which one lacks a variable -/

namespace World

variable {Time : Type}

/-- Two worlds that look like a third one, but that the second of them lacks a variable. -/
structure Drops (name : String) (base left right : World Time) : Prop where
  view : SameView base left
  script : left.script = base.script
  right_eq : right = { left with environment := left.environment.unset name }

variable {name : String} {base : World Time}

theorem Drops.get?_eq {left right : World Time} (drops : Drops name base left right)
    {other : String} (different : other ≠ name) :
    left.environment.get? other = right.environment.get? other := by
  rw [drops.right_eq]
  exact (Environment.get?_unset_of_ne different).symm

theorem Drops.after {left right : World Time} (drops : Drops name base left right)
    (event : Event Time) : Drops name base (left.after event) (right.after event) where
  view := ⟨drops.view.files, drops.view.cwd, drops.view.environment, drops.view.isTerminal⟩
  script := drops.script
  right_eq := by rw [drops.right_eq]; rfl

theorem even_drops : Even (Drops name base) where
  files := fun drops => by rw [drops.right_eq]
  cwd := fun drops => by rw [drops.right_eq]
  isTerminal := fun drops => by rw [drops.right_eq]
  said := fun event _ drops => drops.after event

end World

/-- Assemblies do not read the variable, if it is not that of the search path. -/
theorem Assembly.inStep_drops {Time : Type} {name : String} {base : World Time}
    (different : "PATH" ≠ name) : InStep (World.Drops name base) where
  toEven := World.even_drops
  searchPath := fun drops => drops.get?_eq different
  clock := fun drops => by rw [drops.right_eq]
  timed := fun _ drops =>
    ⟨⟨drops.view.files, drops.view.cwd, drops.view.environment, drops.view.isTerminal⟩,
      drops.script, by rw [drops.right_eq]⟩
  called := fun call drops => drops.after (.called call)
  answers := fun stage _ _ drops => by
    rw [drops.right_eq]
    exact .refl stage _

/-- What a program returns in a world it returns in all that look like it. -/
theorem Program.Alike.knowing {Time α : Type} {related : World Time → World Time → Prop}
    {base : World Time} {program : Program Time α} {post : α → Prop}
    (alike : Alike related Eq program program)
    (viewed : ∀ {left right}, related left right → SameView base left)
    (looks : Alike SameView Eq program program)
    (holds : ∀ value, (program.runIn base).1 = .ok value → post value) :
    Alike related (fun left right => left = right ∧ post left) program program := by
  intro left right kept
  obtain ⟨keptNext, agree⟩ := alike left right kept
  have atBase := (looks base left (viewed kept)).2.eq
  rw [atBase] at holds
  refine ⟨keptNext, ?_⟩
  generalize (program.runIn left).1 = result, (program.runIn right).1 = otherResult at *
  cases agree with
  | ok same => exact .ok ⟨same, holds _ rfl⟩
  | error listed => exact .error listed

/-! ## Settings without the variable -/

namespace Settings

variable {Time : Type} {name key : String} {base : World Time}

theorem underlying_alike_drops (named : fileVariable ≠ name) (home : "HOME" ≠ name) :
    Alike (World.Drops name base) Eq underlying underlying :=
  underlying_alike World.even_drops (fun drops => drops.get?_eq named)
    fun drops => drops.get?_eq home

/-- **The settings that hold do not depend on a variable that names no key.** -/
theorem load_alike_drops (named : fileVariable ≠ name) (home : "HOME" ≠ name)
    (names : variableParts? name = some [key]) (whole : parts key = [key])
    (lacks : ∀ settings, (underlying.runIn base).1 = .ok settings → Lacks key settings)
    (coerces : ∀ text, (name, text) ∈ base.environment → ∃ value, coerce text = .ok value) :
    Alike (World.Drops name base) Eq load load := by
  have looks : Alike (SameView : World Time → World Time → Prop) Eq underlying underlying :=
    underlying_alike World.steady_sameView.toEven (fun same => by rw [same.environment])
      fun same => by rw [same.environment]
  rw [load_eq]
  refine ((underlying_alike_drops named home).knowing (fun drops => drops.view) looks lacks).bind
    fun settings _ same => ?_
  obtain ⟨rfl, lacksKey⟩ := same
  refine .look fun left right drops => ?_
  have coercesLeft : ∀ text, (name, text) ∈ left.environment → ∃ value, coerce text = .ok value := by
    rw [← drops.view.environment]
    exact coerces
  rw [drops.right_eq, override_unset names whole lacksKey coercesLeft]
  exact .ofFault _

/-- The format that settings ask for. -/
def defaultFormat (settings : Shared) : Except Fault Value := do
  let part ← entryOr "output" (.dict []) settings
  let default ← entryOr "format" (.text Output.Format.jsonl.name) part
  pure default.value

end Settings

/-! ## Words that name no format -/

namespace Output

variable {environment : World.Environment} {default : Value}

/-- Beside a word that names no format the default is taken as it stands. -/
theorem choose_of_unknown {text : String} (isSet : environment.get? formatVariable = some text)
    (unknown : formatWord? text = none) : choose environment default = .ok default := by
  simp only [choose, isSet, unknown, Option.map_none, Option.getD_none]

/-- Without a word the default is read in lower case. -/
theorem choose_of_absent {word : String} (absent : environment.get? formatVariable = none) :
    choose environment (.text word) = .ok (.text ((formatWord? word).getD word)) := by
  rw [choose, absent]
  cases formatWord? word with
  | none => rfl
  | some name => rfl

/-- A default in the letters of a format is taken either way. -/
theorem choose_unset (unknown : ∀ text, environment.get? formatVariable = some text →
    formatWord? text = none) (format : Format) :
    choose (environment.unset formatVariable) (.text format.name) =
      choose environment (.text format.name) := by
  have ownName : (formatWord? format.name).getD format.name = format.name := by
    cases format <;> decide
  have withoutWord : ∀ environment : World.Environment, environment.get? formatVariable = none →
      choose environment (.text format.name) = .ok (.text format.name) := by
    intro environment absent
    rw [choose_of_absent absent, ownName]
  rw [withoutWord _ World.Environment.get?_unset_self]
  cases isSet : environment.get? formatVariable with
  | none => exact (withoutWord _ isSet).symm
  | some text => exact (choose_of_unknown isSet (unknown text isSet)).symm

end Output

namespace CommandLine

open Assembly (Service)
open Output (formatVariable formatWord?)
open Settings (defaultFormat)

variable {base : World Value}

theorem chosenFormat_eq (named : Option String) : chosenFormat named = (do
    let settings ← Settings.load
    let default ← Program.ofFault (defaultFormat settings)
    match named with
    | some name => pure (.text name)
    | none => do
      let world ← Program.world
      Program.ofFault (Output.choose world.environment default)) := by
  unfold chosenFormat defaultFormat
  refine congrArg (Settings.load >>= ·) (funext fun settings => ?_)
  cases Settings.entryOr "output" (.dict []) settings with
  | error fault => rfl
  | ok part =>
      change (Program.ofFault (Settings.entryOr "format" _ part) >>= _) = (Program.ofFault
        (Settings.entryOr "format" _ part >>= fun default => pure default.value) >>= _)
      cases Settings.entryOr "format" (.text Output.Format.jsonl.name) part with
      | error fault => rfl
      | ok default => rfl

/-! ## Requests that are not about the settings -/

/-- The commands that make records. -/
def makingCommands : List Command := [.describe, .normalize, .pin]

def Request.isAboutSettings : Request → Bool
  | .writeSettings _ => true
  | .showSettings .. => true
  | _ => false

/-- The words of a command that makes records ask for nothing about the settings. -/
theorem Request.isAboutSettings_of_read {files : World.Files} {cwd : World.Place}
    {command : Command} {rest : List String} {request : Request} (makes : command ∈ makingCommands)
    (asks : Request.read files cwd command rest = .ok request) :
    request.isAboutSettings = false := by
  rcases Request.cases_read asks with rfl | ⟨taken, -, given⟩
  · rfl
  unfold Request.ofWords at given
  cases command with
  | describe =>
      obtain ⟨_, -, given⟩ := Settings.exists_of_bind_eq_ok given
      obtain ⟨_, -, given⟩ := Settings.exists_of_bind_eq_ok given
      rw [← Except.ok.inj given]
      rfl
  | normalize =>
      dsimp only at given
      split at given
      · cases given
      · rw [← Except.ok.inj given]
        rfl
  | pin =>
      dsimp only at given
      split at given
      · cases given
      · obtain ⟨_, -, given⟩ := Settings.exists_of_bind_eq_ok given
        obtain ⟨_, -, given⟩ := Settings.exists_of_bind_eq_ok given
        rw [← Except.ok.inj given]
        rfl
  | _ => exact absurd makes (by decide)

/-! ## Runs beside those without the variable -/

/-- What is asked of a variable that names no format, and of the settings that hold beside it. -/
structure IsIgnorable (world : World Value) : Prop where
  /-- The text names no format, and it stands for a value. -/
  unknown : ∀ text, (formatVariable, text) ∈ world.environment →
    formatWord? text = none ∧ ∃ value, Settings.coerce text = .ok value
  /-- The keys at the top of the settings are texts, and none is `format`. -/
  keyed : ∀ settings entries, (Settings.underlying.runIn world).1 = .ok settings →
    settings.root = .dict entries →
      ∀ key ∈ Entries.keys entries, ∃ name, key = .text name ∧ name ≠ "format"
  /-- The default is the name of a format. -/
  listed : ∀ settings value, (Settings.load.runIn world).1 = .ok settings →
    defaultFormat settings = .ok value → ∃ format : Output.Format, value = .text format.name

theorem printable_drops : Printable (World.Drops formatVariable base) :=
  fun text drops => drops.after (.printed text)

section Ignorable

variable (ignorable : IsIgnorable base)

include ignorable

theorem IsIgnorable.settled : Settled (World.Drops formatVariable base) where
  toEven := World.even_drops
  loads := by
    have names : Settings.variableParts? formatVariable = some ["format"] := by decide +kernel
    refine Settings.load_alike_drops (by decide) (by decide) names (by decide +kernel) ?_
      fun text member => (ignorable.unknown text member).2
    intro settings returns
    obtain ⟨entries, isDict⟩ := Settings.exists_dict_of_underlying (Prod.ext returns rfl)
    exact ⟨entries, isDict, ignorable.keyed settings entries returns isDict⟩

theorem IsIgnorable.chosenFormat_alike (named : Option String) :
    Alike (World.Drops formatVariable base) Eq (chosenFormat named) (chosenFormat named) := by
  rw [chosenFormat_eq]
  refine (ignorable.settled.loads.knowing (fun drops => drops.view)
    (Settings.load_alike World.steady_sameView) fun settings returns value =>
      ignorable.listed settings value returns).bind fun settings _ same => ?_
  obtain ⟨rfl, listed⟩ := same
  cases asks : defaultFormat settings with
  | error fault => exact .fail (Failure.isListed_fault fault)
  | ok default =>
      obtain ⟨format, rfl⟩ := listed default asks
      have chosen : (Program.ofFault (.ok (.text format.name)) : Action Value) =
          pure (.text format.name) := rfl
      rw [chosen, pure_bind]
      cases named with
      | some name => exact .pure rfl
      | none =>
          refine .look fun left right drops => ?_
          have unknown : ∀ text, left.environment.get? formatVariable = some text →
              formatWord? text = none := by
            rw [← drops.view.environment]
            exact fun text isSet =>
              (ignorable.unknown text (World.Environment.mem_of_get? isSet)).1
          rw [drops.right_eq, Output.choose_unset unknown]
          exact .ofFault _

theorem IsIgnorable.prepared : Prepared (World.Drops formatVariable base) where
  toSettled := ignorable.settled
  chooses := ignorable.chosenFormat_alike
  speaks := current_alike World.even_drops (fun drops => drops.get?_eq (by decide))
    (fun drops => drops.get?_eq (by decide)) none

/-- The same record is made of a directory, down to the remote URL. -/
theorem IsIgnorable.assembled_same (directory : String) :
    Alike (World.Drops formatVariable base) Eq (assembled directory) (assembled directory) := by
  have scripted : ∀ {left right : World Value}, World.Drops formatVariable base left right →
      left.script = base.script ∧ right.script = base.script := by
    intro left right drops
    exact ⟨drops.script, by rw [drops.right_eq, ← drops.script]⟩
  have inStep : Assembly.InStep (World.Drops formatVariable base) :=
    Assembly.inStep_drops (by decide)
  have assembles (service : Service Value) : Alike (World.Drops formatVariable base)
      (fun left right => left.1 = right.1 ∧ left.2 = right.2)
      (service.assemble directory none) (service.assemble directory none) :=
    (inStep.assembleAlong_same scripted service _ directory none).weaken
      fun _ _ same => ⟨by rw [same], by rw [same]⟩
  exact (ignorable.settled.assembled_alike assembles).weaken fun _ _ same => Prod.ext same.1 same.2

/-- Every request that is not about the settings is done alike. -/
theorem IsIgnorable.obey_alike {request : Request} (other : request.isAboutSettings = false) :
    Alike (World.Drops formatVariable base) Eq (obey request) (obey request) := by
  have prepared := ignorable.prepared
  cases request with
  | help command => exact showHelp_alike printable_drops command
  | describe directory strict located table manner =>
      exact prepared.produce_alike printable_drops (fun progress => describe_same World.even_drops
        printable_drops (ignorable.assembled_same directory) strict located table progress) manner
  | normalize urls manner =>
      exact prepared.produce_alike printable_drops (fun _ => normalize_alike urls) manner
  | pin reference directory asCommand manner =>
      refine prepared.produce_alike printable_drops (fun progress =>
        pin_alike_of_made World.even_drops ?_ reference asCommand progress) manner
      exact (ignorable.assembled_same directory).weaken fun left right same => by
        rw [same]
        exact ⟨⟨rfl, .refl _⟩, rfl⟩
  | writeSettings force => cases other
  | showSettings pretty path => cases other

end Ignorable

/-- **A variable that names no format is ignored**, if the default is in the letters of a format: a
run that makes records has the same outcome without it, on both streams and in its exit code,
whatever its words are and whatever else is in the world. -/
theorem unknown_format_ignored (world : World Value) (words rest : List String) (switches : Words)
    (chosen : Command) (leads : Entry.read .root words = .ok (.command switches chosen rest))
    (makes : chosen ∈ makingCommands) (ignorable : IsIgnorable (unsaid world)) :
    (outcomeIn world words).1 =
      (outcomeIn { world with environment := world.environment.unset formatVariable } words).1 := by
  have other : chosen ≠ .settings := by
    rintro rfl
    exact absurd makes (by decide)
  have alike : Alike (World.Drops formatVariable (unsaid world)) Eq (run words) (run words) :=
    ignorable.settled.run_alike leads other fun _ _ _ asks =>
      ignorable.obey_alike (Request.isAboutSettings_of_read makes asks)
  exact outcomeIn_of_alike alike (fun drops => by rw [drops.right_eq])
    ⟨.refl _, rfl, rfl⟩

/-- A world without a settings file, with a default and a word for the format. -/
def worldChoosing (default word : String) : World Value :=
  { worldAnswering [] with
    environment := [("HOME", "/"), ("GITMETA_OUTPUT_FORMAT", default), (formatVariable, word)] }

/-- A default that a variable names. -/
theorem isIgnorable_worldChoosing : IsIgnorable (unsaid (worldChoosing "csv" "xml")) where
  unknown := by
    intro text member
    obtain rfl : text = "xml" := by simpa [unsaid, worldChoosing, formatVariable] using member
    exact ⟨by decide +kernel, _, rfl⟩
  keyed := by
    intro settings entries returns isDict
    have plain : (Settings.underlying.runIn (unsaid (worldChoosing "csv" "xml"))).1 =
        .ok (.plain Settings.defaults) := rfl
    obtain rfl := Except.ok.inj (plain.symm.trans returns)
    obtain rfl := Value.dict.inj isDict
    have named : ∀ key ∈ Entries.keys (["git", "logging", "output"].map fun name =>
        (Data.Scalar.text name, Value.null)), ∃ name, key = .text name ∧ name ≠ "format" := by
      simp [Entries.keys]
    exact named
  listed := by
    intro settings value returns asks
    have csv : ((Settings.load.runIn (unsaid (worldChoosing "csv" "xml"))).1.toOption.bind
        fun settings => (defaultFormat settings).toOption.bind Value.text?) = some "csv" := by
      decide +kernel
    rw [returns] at csv
    simp only [Except.toOption, Option.bind_some, asks] at csv
    unfold Value.text? at csv
    split at csv
    · obtain rfl := Option.some.inj csv
      exact ⟨.csv, rfl⟩
    · cases csv

/-- The law at work: a word that names no format, beside a default that is one. -/
theorem unknown_format_ignored_csv :
    Entry.read .root ["normalize", "https://h/x"] =
        .ok (.command ⟨[], ["normalize", "https://h/x"]⟩ .normalize ["https://h/x"]) ∧
      Command.normalize ∈ makingCommands ∧ IsIgnorable (unsaid (worldChoosing "csv" "xml")) ∧
      (outcomeIn (worldChoosing "csv" "xml") ["normalize", "https://h/x"]).1 =
        (outcomeIn { worldChoosing "csv" "xml" with
          environment := (worldChoosing "csv" "xml").environment.unset formatVariable }
            ["normalize", "https://h/x"]).1 := by
  have leads : Entry.read .root ["normalize", "https://h/x"] =
      .ok (.command ⟨[], ["normalize", "https://h/x"]⟩ .normalize ["https://h/x"]) := rfl
  have makes : Command.normalize ∈ makingCommands := by decide
  exact ⟨leads, makes, isIgnorable_worldChoosing,
    unknown_format_ignored _ _ _ _ _ leads makes isIgnorable_worldChoosing⟩

/-- A default in capital letters is a format without the variable, and none beside a word that names
none. -/
theorem unknown_format_not_ignored :
    formatWord? "xml" = none ∧ formatWord? "JSON" = some "json" ∧
      (outcomeIn (worldChoosing "JSON" "xml") ["normalize", "https://h/x"]).1.exitCode = 70 ∧
      (outcomeIn { worldChoosing "JSON" "xml" with
        environment := (worldChoosing "JSON" "xml").environment.unset formatVariable }
          ["normalize", "https://h/x"]).1.exitCode = 0 := by
  decide +kernel

end CommandLine
end Provenance
