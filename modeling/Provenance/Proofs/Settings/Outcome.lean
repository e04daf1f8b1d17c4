import Provenance.Proofs.Settings.Documents
import Provenance.Proofs.Settings.Precedence
import Provenance.Proofs.Settings.TextKeys

/-!
Contract: how loading ends, by what the settings file holds.

Owns:
- `EndsUnder` and `IsLoadable`, loading that ends with some settings under the variables, and when
  these are settings at all;
- `IsLoadedByContents`, one law for each kind of contents;
- `load_byContents`: so settings are loaded where a file is found;
- `not_load_returns_list`, a file with which they are not.

Does **not** own: where the file is found, and which entries the loaded settings have.

## What is reported

A file that is no document is reported, and so is one that cannot be opened.  A document that is no
dictionary is refused only when it is merged, with a fault that says nothing about the file; it is not
reported, and neither are the variables whose text has no value.
-/

set_option autoImplicit false

namespace Provenance.Settings

open Data (Value Shared)
open World (LogRecord)

variable {Time : Type} {world : World Time} {path : String} {file merged : Shared}
  {failure : Failure}

/-- Loading ends with some settings under the variables, after some records. -/
def EndsUnder (world : World Time) (settings : Shared) (records : List LogRecord) : Prop :=
  load.runIn world = ((override world.environment settings).mapError Failure.fault,
    { world with trace := world.trace ++ records.map .logged })

/-- Settings can be put under the variables if and only if each variable has a value, and they stay
a dictionary. -/
structure IsLoadable (world : World Time) (settings : Shared) : Prop where
  returns_iff : (∃ result, override world.environment settings = .ok result) ↔
    Coercible world.environment
  isDict : ∀ result, override world.environment settings = .ok result →
    ∃ entries, result.root = .dict entries

/-- What is loaded where a file is found, for each kind of its contents. -/
structure IsLoadedByContents (world : World Time) (path : String) : Prop where
  /-- An unusable file is reported once, and the defaults stand in its place. -/
  unusable : ∀ failure, ((readFrom path).runIn world).1 = .error failure →
    saysUnusable failure = true →
      EndsUnder world (.plain defaults) [unusableRecord path failure] ∧
        IsLoadable world (.plain defaults)
  /-- Any other failure to read the file is a failure to load settings. -/
  unforeseen : ∀ failure, ((readFrom path).runIn world).1 = .error failure →
    saysUnusable failure = false → load.runIn world = (.error failure, world)
  /-- A dictionary is merged over the defaults, and nothing is reported; its keys must be texts. -/
  table : ∀ file entries, ((readFrom path).runIn world).1 = .ok file → file.head = .dict entries →
    ∃ merged, mergeShared defaults file = .ok merged ∧ EndsUnder world merged [] ∧
      (file.cells.TextKeyed file.root → IsLoadable world merged)
  /-- Any other document is a failure to load settings, and is not reported. -/
  noTable : ∀ file, ((readFrom path).runIn world).1 = .ok file →
    (∀ entries, file.head ≠ .dict entries) →
      load.runIn world = (.error (.fault (.noOperation file.head.kind "items")), world)
  /-- JSON and TOML are unusable if they cannot be read, and their keys are texts. -/
  textual : Dialect.ofPath path ≠ .yaml →
    (∀ failure, ((readFrom path).runIn world).1 = .error failure → saysUnusable failure = true) ∧
      ∀ file, ((readFrom path).runIn world).1 = .ok file → file.cells.TextKeyed file.root
  /-- A TOML document is a dictionary. -/
  toml : Dialect.ofPath path = .toml → ∀ file, ((readFrom path).runIn world).1 = .ok file →
    ∃ entries, file.head = .dict entries

/-! ## Merging -/

/-- A document that is no dictionary is refused when it is merged. -/
theorem mergeShared_of_ne_dict (unlike : ∀ entries, file.head ≠ .dict entries) :
    mergeShared defaults file = .error (.noOperation file.head.kind "items") := by
  unfold mergeShared mergeWith defaults Value.record Shared.head
  cases head : file.cells.resolve file.root with
  | dict entries => exact absurd head (unlike entries)
  | _ => rfl

theorem textKeyed_of_hasTextKeys {value : Value} (isKeyed : value.HasTextKeys) :
    (Shared.plain value).cells.TextKeyed value :=
  Data.Cells.textKeyed_of_isKeyed isKeyed fun _ member => (Array.not_mem_empty _ member).elim

/-! ## Loading -/

theorem isLoadable {settings : Shared} (isDict : ∃ entries, settings.root = .dict entries)
    (textKeyed : settings.cells.TextKeyed settings.root) : IsLoadable world settings where
  returns_iff := override_returns_iff isDict textKeyed
  isDict := fun _ => exists_dict_of_override isDict textKeyed

/-- A document that is no dictionary is a failure, which does not say that the file is unusable. -/
theorem load_of_unlike (located : (locate.runIn world).1 = .ok path)
    (isThere : ((World.Disk.doesExist path).runIn world).1 = .ok true)
    (reads : ((readFrom path).runIn world).1 = .ok file)
    (unlike : ∀ entries, file.head ≠ .dict entries) :
    load.runIn world = (.error (.fault (.noOperation file.head.kind "items")), world) := by
  have merges : (mergedFile path).runIn world =
      (.error (.fault (.noOperation file.head.kind "items")), world) := by
    rw [mergedFile_of_ok reads, mergeShared_of_ne_dict unlike]
    rfl
  have ends := withFile_of_error merges
  rw [show saysUnusable (.fault (.noOperation file.head.kind "items")) = false from rfl,
    if_neg Bool.false_ne_true] at ends
  rw [load_eq_of_found located isThere, Program.runIn_bind_of_error ends]

/-- **What is loaded is settled by what the file holds.**  A file that cannot be used is reported in
one record, and the defaults under the variables are loaded; a dictionary is merged over the defaults
without a record; any other document is a failure that is not reported.  Under text keys the
settings are loaded if and only if each variable has a value. -/
theorem load_byContents (world : World Time) (path : String)
    (located : (locate.runIn world).1 = .ok path)
    (isThere : ((World.Disk.doesExist path).runIn world).1 = .ok true) :
    IsLoadedByContents world path := by
  refine ⟨?_, ?_, ?_, ?_, ?_, ?_⟩
  · intro failure fails unusable
    have ends := withFile_of_error (mergedFile_of_error fails)
    rw [if_pos unusable] at ends
    exact ⟨load_of_withFile located isThere ends rfl, isLoadable ⟨_, rfl⟩ (textKeyed_defaults _)⟩
  · intro failure fails unforeseen
    have ends := withFile_of_error (mergedFile_of_error fails)
    rw [unforeseen, if_neg Bool.false_ne_true] at ends
    rw [load_eq_of_found located isThere, Program.runIn_bind_of_error ends]
  · intro file entries reads isDict
    obtain ⟨merged, merges, mergedDict, textKeyed⟩ := exists_merged isDict
    have ends : (withFile path).runIn world = (.ok merged, world) :=
      withFile_of_ok (by rw [mergedFile_of_ok reads, merges]; rfl)
    refine ⟨merged, merges, ?_, fun fileKeyed => isLoadable mergedDict (textKeyed fileKeyed)⟩
    rw [EndsUnder, load_of_withFile located isThere ends rfl, List.map_nil, List.append_nil]
  · exact fun file => load_of_unlike located isThere
  · intro textual
    refine ⟨fun failure => saysUnusable_of_readFrom textual, fun file reads => ?_⟩
    obtain ⟨value, rfl, isKeyed, -⟩ := exists_plain_of_readFrom textual reads
    exact textKeyed_of_hasTextKeys isKeyed
  · intro isToml file reads
    obtain ⟨value, rfl, -, isDict⟩ := exists_plain_of_readFrom (by rw [isToml]; decide) reads
    obtain ⟨entries, rfl⟩ := isDict isToml
    exact ⟨entries, rfl⟩

/-- A text that begins like a dictionary and goes on like none. -/
def brokenText : String := "\x7bnot json"

def brokenFault : Failure.Fault :=
  .notJson "Expecting property name enclosed in double quotes: line 1 column 2 (char 1)"

/-- A broken file is reported, and the defaults under the variables are loaded. -/
theorem load_byContents_broken :
    EndsUnder (worldWith "c.json" brokenText ("GITMETA_GIT_REMOTE", "upstream")) (.plain defaults)
      [unusableRecord "/c.json" (.fault brokenFault)] ∧
      IsLoadable (worldWith "c.json" brokenText ("GITMETA_GIT_REMOTE", "upstream"))
        (.plain defaults) := by
  have fails : Json.read brokenText = .error brokenFault := by
    unfold Json.read
    rw [show Json.readCharacters brokenText.toList =
      .error (.complaint .expectingName 8) by cbv]
    rfl
  exact (load_byContents _ "/c.json" rfl rfl).unusable (.fault brokenFault)
    (readFrom_of_error rfl (Dialect.read_json_of_error rfl fails)) rfl

def listText : String := "[1, 2]"

/-- Not every file that is found leads to settings: a list in it leads to a failure, and nothing is
reported. -/
theorem not_load_returns_list :
    ¬ ∀ (world : World Rat) (path : String), (locate.runIn world).1 = .ok path →
      ((World.Disk.doesExist path).runIn world).1 = .ok true → Coercible world.environment →
        ∃ result entries after, load.runIn world = (.ok result, after) ∧
          result.root = .dict entries := by
  intro law
  have parses : Json.read listText = .ok (.list [.int 1, .int 2]) := by
    unfold Json.read
    rw [show Json.readCharacters listText.toList = .ok (.list [.int 1, .int 2]) by cbv]
  have located : (locate.runIn
      (worldWith "c.json" listText ("GITMETA_GIT_REMOTE", "upstream"))).1 = .ok "/c.json" := rfl
  have reads : ((readFrom "/c.json").runIn
      (worldWith "c.json" listText ("GITMETA_GIT_REMOTE", "upstream"))).1 =
        .ok (.plain (.list [.int 1, .int 2])) :=
    readFrom_runIn rfl (Dialect.read_json rfl parses)
  have fails := load_of_unlike located rfl reads fun _ isDict => by cases isDict
  obtain ⟨result, entries, after, returns, -⟩ := law _ "/c.json" located rfl (coercible_worldWith rfl)
  rw [fails] at returns
  cases returns

end Provenance.Settings
