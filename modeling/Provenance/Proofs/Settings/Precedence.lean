import Mathlib
import Provenance.Proofs.Settings.Layers
import Provenance.Proofs.Settings.Load
import Provenance.Proofs.Yaml.Filling

/-!
Contract: which layer an entry of the loaded settings comes from.

Owns:
- `HasPrecedence`, variables over the file over the defaults, entry by entry;
- `load_hasPrecedence`: so settings are loaded where no dictionary stands at two places;
- `not_load_hasPrecedence_aliased`, a file in which one does.

Does **not** own: files that cannot be read or merged.

## Paths and suffixes

A variable names the path whose keys, with underscores between them, are its suffix.
Keys contain underscores themselves.  Where no key's parts begin another key's beside
it, the walk for a suffix still finds the one path.
-/

set_option autoImplicit false

namespace Provenance.Settings

open Data (Scalar Value Entries Shared)
open World (Environment)

variable {environment : Environment} {file merged result : Shared}

/-- What is loaded is the merged settings under the variables, which are defaults under a file. -/
structure HasPrecedence (environment : Environment) (file merged result : Shared) : Prop where
  /-- A variable that names an entry puts its value there, unless one names something around it. -/
  named : ∀ keys entry name text value, keys ≠ [] → merged.entryAt? keys = some entry →
    (name, text) ∈ environment → suffix? name = some (joined keys) →
      (∀ start, start <+: keys → start ≠ [] → start ≠ keys →
        joined start ∉ suffixes environment) →
        coerce text = .ok value → (result.entryAt? keys).map Shared.value = some value
  /-- An entry without entries that no variable names, nor anything around it, stays what it is. -/
  unnamed : ∀ keys entry, keys ≠ [] → merged.entryAt? keys = some entry →
    (∀ entries, entry.head ≠ .dict entries) →
      (∀ start, start <+: keys → start ≠ [] → joined start ∉ suffixes environment) →
        (result.entryAt? keys).map Shared.value = some entry.value
  /-- Such an entry is the file's where the file has one, and else the default. -/
  layered : ∀ keys entry, merged.entryAt? keys = some entry →
    (∀ entries, entry.head ≠ .dict entries) → IsLayered file defaults keys entry
  /-- Variables that name no path change nothing: any of them may be left out. -/
  idle : ∀ fewer : Environment, fewer.Sublist environment →
    (∀ name text keys entry, (name, text) ∈ environment → keys ≠ [] →
      merged.entryAt? keys = some entry → suffix? name = some (joined keys) →
        (name, text) ∈ fewer) →
      ∃ other, override fewer merged = .ok other ∧ other.value = result.value

/-! ## Variables and their overrides -/

theorem exists_of_mem_overrides (coercible : Coercible environment)
    {replacement : List String × Scalar} (member : replacement ∈ overrides environment) :
    ∃ name text suffix, (name, text) ∈ environment ∧ suffix? name = some suffix ∧
      replacement.1 = parts suffix ∧ coerce text = .ok (.scalar replacement.2) := by
  obtain ⟨⟨wanted, text⟩, isAssignment, isReplacement⟩ := List.mem_filterMap.mp member
  obtain ⟨⟨name, text'⟩, isVariable, names⟩ := List.mem_filterMap.mp isAssignment
  simp only [variableParts?_eq, Option.map_map, Option.map_eq_some_iff, Function.comp_apply] at names
  obtain ⟨suffix, hasSuffix, pair⟩ := names
  obtain ⟨rfl, rfl⟩ := Prod.mk.inj pair
  obtain ⟨value, coerced⟩ := coercible name text' isVariable (by rw [hasSuffix]; rfl)
  obtain ⟨new, rfl⟩ := exists_scalar_of_coerce coerced
  simp only [coerced] at isReplacement
  obtain rfl := Option.some.inj isReplacement
  exact ⟨name, text', suffix, isVariable, hasSuffix, rfl, coerced⟩

theorem mem_overrides {name text suffix : String} {new : Scalar}
    (isVariable : (name, text) ∈ environment) (hasSuffix : suffix? name = some suffix)
    (coerced : coerce text = .ok (.scalar new)) : (parts suffix, new) ∈ overrides environment := by
  refine List.mem_filterMap.mpr ⟨(parts suffix, text), ?_, by simp only [coerced]⟩
  refine List.mem_filterMap.mpr ⟨(name, text), isVariable, ?_⟩
  simp only [variableParts?_eq, hasSuffix]
  rfl

theorem mem_suffixes {name text suffix : String} (isVariable : (name, text) ∈ environment)
    (hasSuffix : suffix? name = some suffix) : suffix ∈ suffixes environment :=
  List.mem_filterMap.mpr ⟨(name, text), isVariable, hasSuffix⟩

/-- A path that no variable names is not the one of an override. -/
theorem ne_of_mem_overrides (coercible : Coercible environment) {path : List String}
    (given : path ≠ []) (unnamed : joined path ∉ suffixes environment) :
    ∀ replacement ∈ overrides environment, replacement.1 ≠ path.flatMap parts := by
  intro replacement member names
  obtain ⟨name, text, suffix, isVariable, hasSuffix, parts_eq, -⟩ :=
    exists_of_mem_overrides coercible member
  have isPath := (eq_joined_iff given).mpr (parts_eq.symm.trans names)
  exact unnamed (isPath ▸ mem_suffixes isVariable hasSuffix)

/-! ## Precedence -/

/-- **Variables over settings**, entry by entry, where the settings are nested and well keyed. -/
theorem hasPrecedence_override (nested : merged.IsNested)
    (wellKeyed : IsWellKeyed merged.value) (distinct : (suffixes environment).Nodup)
    (coercible : Coercible environment) (merges : mergeShared defaults file = .ok merged) :
    ∃ result, override environment merged = .ok result ∧
      HasPrecedence environment file merged result := by
  obtain ⟨result, overridden, nestedResult, result_value⟩ := override_value nested coercible
  have entry_value : ∀ {keys entry}, merged.entryAt? keys = some entry →
      merged.value.entryAt? keys = some entry.value := by
    intro keys entry isThere
    rw [nested.entryAt?_value, isThere]
    rfl
  refine ⟨result, overridden, ?_, ?_, ?_, ?_⟩
  · intro keys entry name text value given isThere isVariable hasSuffix around coerced
    obtain ⟨new, rfl⟩ := exists_scalar_of_coerce coerced
    rw [← nestedResult.entryAt?_value, result_value]
    have member := mem_overrides isVariable hasSuffix coerced
    rw [parts_joined given] at member
    refine entryAt?_replacedAll_of_named wellKeyed (nodup_overrides coercible distinct)
      (entry_value isThere) given member ?_
    intro replacement isReplacement start isStart nonempty proper
    exact ne_of_mem_overrides coercible nonempty (around start isStart nonempty proper) replacement
      isReplacement
  · intro keys entry given isThere unlike around
    rw [← nestedResult.entryAt?_value, result_value]
    have around : ∀ replacement ∈ overrides environment, ¬ Covers replacement.1 keys := by
      rintro replacement isReplacement ⟨start, isStart, nonempty, names⟩
      exact ne_of_mem_overrides coercible nonempty (around start isStart nonempty) replacement
        isReplacement names
    obtain ⟨now, isThereNow, kept⟩ :=
      entryAt?_replacedAll_of_unnamed (entry_value isThere) around
    have collections : entry.cells.HoldsCollections := by
      rw [Shared.cells_of_entryAt? isThere]
      exact nested.collections
    have unlikeValue : ∀ entries, entry.value ≠ .dict entries :=
      Data.Cells.shown_ne_dict .nil collections unlike
    rw [isThereNow, kept unlikeValue]
  · intro keys entry isThere unlike
    obtain ⟨rfl, -⟩ := mergeShared_eq_ok merges
    exact isLayered_overlay (by decide) isThere unlike
  · intro fewer sublist kept
    have coercibleFewer : Coercible fewer := fun name text member =>
      coercible name text (sublist.mem member)
    obtain ⟨other, overriddenOther, -, other_value⟩ := override_value nested coercibleFewer
    refine ⟨other, overriddenOther, ?_⟩
    rw [other_value, result_value]
    refine replacedAll_of_sublist ((sublist.filterMap _).filterMap _)
      (nodup_overrides coercible distinct) ?_
    intro replacement isReplacement path found given isThere names
    obtain ⟨name, text, suffix, isVariable, hasSuffix, parts_eq, coerced⟩ :=
      exists_of_mem_overrides coercible isReplacement
    rw [nested.entryAt?_value, Option.map_eq_some_iff] at isThere
    obtain ⟨entry, isEntry, -⟩ := isThere
    have isPath := (eq_joined_iff given).mpr (parts_eq.symm.trans names)
    have isKept := kept name text path entry isVariable given isEntry (isPath ▸ hasSuffix)
    have isReplacementToo := mem_overrides isKept hasSuffix coerced
    rw [← parts_eq] at isReplacementToo
    exact isReplacementToo

variable {Time : Type}

/-- **Variables over the file over the defaults.**  Where the settings file is a document whose
settings can be merged, and in the merged settings no dictionary stands at two places and no key's
parts begin those of a key beside it, settings are loaded and every entry of them comes from the
highest layer that has it: a variable that names it, the file, the defaults. -/
theorem load_hasPrecedence (world : World Time) (path : String) (file merged : Shared)
    (located : (locate.runIn world).1 = .ok path)
    (isThere : ((World.Disk.doesExist path).runIn world).1 = .ok true)
    (reads : ((readFrom path).runIn world).1 = .ok file)
    (merges : mergeShared defaults file = .ok merged)
    (textKeyed : merged.cells.TextKeyed merged.root)
    (unshared : merged.cells.Unshared merged.root) (wellKeyed : IsWellKeyed merged.value)
    (distinct : (suffixes world.environment).Nodup) (coercible : Coercible world.environment) :
    ∃ result, load.runIn world = (.ok result, world) ∧
      HasPrecedence world.environment file merged result := by
  obtain ⟨isOverlay, isDict⟩ := mergeShared_eq_ok merges
  have collections : merged.cells.HoldsCollections := by
    rw [show merged.cells = file.cells by rw [isOverlay]]
    exact holdsCollections_of_readFrom reads
  have nested : merged.IsNested := ⟨isDict, collections, textKeyed, unshared⟩
  obtain ⟨result, overridden, precedence⟩ :=
    hasPrecedence_override nested wellKeyed distinct coercible merges
  exact ⟨result, load_runIn located isThere reads merges overridden, precedence⟩

/-! ## A file in which a section is written down -/

/-- A world in which the environment names a file of settings and holds one more variable. -/
def worldWith (name text : String) (setting : String × String) : World Rat where
  files := ⟨[([name], .file (Text.Utf8.encode text) false)]⟩
  cwd := []
  environment := [(fileVariable, "/" ++ name), setting]
  script := { otherwise := { takes := 0 } }
  clock := 0

def binaryText : String := "\x7b\x22git\x22: \x7b\x22binary\x22: \x22hub\x22\x7d\x7d"

def binaryEntries : Value :=
  .record [("git", .record [("binary", .text "hub")])]

/-- The defaults with another binary. -/
def binaryMerged : Value :=
  .record [
    ("git", .record (("binary", .text "hub") :: gitSection.tail)),
    ("logging", .record loggingSection),
    ("output", .record outputSection)
  ]

theorem coercible_worldWith {name text : String} {setting : String × String} {value : Value}
    (coerced : coerce setting.2 = .ok value) :
    Coercible (worldWith name text setting).environment := by
  intro found foundText member names
  rcases List.mem_cons.mp member with isFile | later
  · cases isFile
    cases names
  · cases List.mem_singleton.mp later
    exact ⟨value, coerced⟩

/-- Variables over a file over the defaults, for a variable whose key has an underscore. -/
theorem load_hasPrecedence_binary :
    ∃ result,
      load.runIn (worldWith "c.json" binaryText ("GITMETA_GIT_TIMEOUT_SECONDS", "5")) =
          (.ok result, worldWith "c.json" binaryText ("GITMETA_GIT_TIMEOUT_SECONDS", "5")) ∧
        HasPrecedence
          (worldWith "c.json" binaryText ("GITMETA_GIT_TIMEOUT_SECONDS", "5")).environment
          (.plain binaryEntries) (.plain binaryMerged) result := by
  have parses : Json.read binaryText = .ok binaryEntries := by
    unfold Json.read
    rw [show Json.readCharacters binaryText.toList = .ok binaryEntries by cbv]
  exact load_hasPrecedence _ "/c.json" (.plain binaryEntries) (.plain binaryMerged) rfl rfl
    (readFrom_runIn rfl (Dialect.read_json rfl parses)) rfl
    (Data.Cells.textKeyed_of_isKeyed (by decide) fun _ member => (Array.not_mem_empty _ member).elim)
    (fun _ _ _ _ _ _ _ _ _ holds => by cases holds) (isWellKeyed_of_keysAreApart (by decide))
    (by decide) (coercible_worldWith rfl)

/-! ## A file in which a section stands under two keys -/

def aliasedText : String := "a: &s\n  k: 1\nb: *s\n"

def aliasedGraph : Yaml.Graph where
  nodes := #[
    .mapping "tag:yaml.org,2002:map" [(1, 2), (5, 2)],
    .scalar "tag:yaml.org,2002:str" ['a'],
    .mapping "tag:yaml.org,2002:map" [(3, 4)],
    .scalar "tag:yaml.org,2002:str" ['k'],
    .scalar "tag:yaml.org,2002:int" ['1'],
    .scalar "tag:yaml.org,2002:str" ['b']
  ]
  root := some 0

def aliasedEntries : Entries :=
  [(.text "a", .link 2 .dict), (.text "b", .link 2 .dict)]

def aliasedCells : Data.Cells :=
  #[.dict aliasedEntries, .null, .dict [(.text "k", .int 1)], .null, .null, .null]

open Yaml Construction in
theorem construct_aliasedGraph : aliasedGraph.construct = .ok ⟨.link 0 .dict, aliasedCells⟩ := by
  have outerEntries : [(1, 2), (5, 2)].mapM entryValue
        ⟨aliasedGraph.nodes, #[.dict [], .null, .null, .null, .null, .null], [],
          #[true, false, false, false, false, false]⟩ =
      .ok (aliasedEntries, ⟨aliasedGraph.nodes, #[.dict [], .null, .dict [], .null, .null, .null],
        [2], #[true, false, true, false, false, false]⟩) := rfl
  have innerEntries : [(3, 4)].mapM entryValue
        ⟨aliasedGraph.nodes, #[.dict aliasedEntries, .null, .dict [], .null, .null, .null], [],
          #[true, false, true, false, false, false]⟩ =
      .ok ([(.text "k", .int 1)],
        ⟨aliasedGraph.nodes, #[.dict aliasedEntries, .null, .dict [], .null, .null, .null], [],
          #[true, false, true, false, false, false]⟩) := rfl
  have outer := @fill_of_plain _ _ 0 _ _ rfl (by decide) (by decide) rfl _ outerEntries
  have inner := @fill_of_plain _ _ 2 _ _ rfl (by decide) (by decide) rfl _ innerEntries
  have fills : fillAll 7 ⟨aliasedGraph.nodes, #[.dict [], .null, .null, .null, .null, .null], [0],
        #[true, false, false, false, false, false]⟩ =
      .ok ((), ⟨aliasedGraph.nodes, aliasedCells, [],
        #[true, false, true, false, false, false]⟩) :=
    (fillAll_of_waiting rfl outer).trans ((fillAll_of_waiting rfl inner).trans (fillAll_of_idle rfl))
  unfold Graph.construct
  simp only [show aliasedGraph.root = some 0 from rfl]
  rw [document_of_fills rfl fills]
  rfl

theorem read_aliasedText : Yaml.read aliasedText = .ok ⟨.link 0 .dict, aliasedCells⟩ := by
  unfold Yaml.read
  rw [show Yaml.Graph.ofTokens (Yaml.Token.scan aliasedText.toList) = .ok aliasedGraph by cbv]
  have constructs : (Except.ok aliasedGraph >>= Yaml.Graph.construct) =
      .ok ⟨.link 0 .dict, aliasedCells⟩ := construct_aliasedGraph
  rw [constructs]

/-- The defaults and the entries of that file. -/
def aliasedMerged : Shared where
  root := .dict ([
    (.text "git", .record gitSection),
    (.text "logging", .record loggingSection),
    (.text "output", .record outputSection)
  ] ++ aliasedEntries)
  cells := aliasedCells

/-- A section that stands under two keys is changed under both by a variable that names an entry of
it under one. -/
theorem not_load_hasPrecedence_aliased :
    ¬ ∀ (world : World Rat) (path : String) (file merged : Shared),
      (locate.runIn world).1 = .ok path →
        ((World.Disk.doesExist path).runIn world).1 = .ok true →
          ((readFrom path).runIn world).1 = .ok file → mergeShared defaults file = .ok merged →
            merged.cells.TextKeyed merged.root → IsWellKeyed merged.value →
              (suffixes world.environment).Nodup → Coercible world.environment →
                ∃ result, load.runIn world = (.ok result, world) ∧
                  HasPrecedence world.environment file merged result := by
  intro law
  have reads : ((readFrom "/c.yaml").runIn
      (worldWith "c.yaml" aliasedText ("GITMETA_A_K", "5"))).1 = .ok ⟨.link 0 .dict, aliasedCells⟩ :=
    readFrom_runIn rfl (Dialect.read_yaml rfl read_aliasedText rfl)
  have textKeyed : aliasedMerged.cells.TextKeyed aliasedMerged.root :=
    Data.Cells.textKeyed_of_isKeyed (by decide) (by decide)
  have wellKeyed : IsWellKeyed aliasedMerged.value := isWellKeyed_of_keysAreApart (by decide)
  obtain ⟨result, loads, precedence⟩ := law (worldWith "c.yaml" aliasedText ("GITMETA_A_K", "5"))
    "/c.yaml" _ aliasedMerged rfl rfl reads rfl textKeyed wellKeyed (by decide)
    (coercible_worldWith rfl)
  have unnamed : ∀ start ∈ List.inits ["b", "k"], start ≠ [] → joined start ∉
      suffixes (worldWith "c.yaml" aliasedText ("GITMETA_A_K", "5")).environment := by decide
  have kept := precedence.unnamed ["b", "k"] ⟨.int 1, aliasedCells⟩ (by decide) rfl
    (fun _ isDict => by cases isDict)
    fun start isStart => unnamed start ((List.mem_inits start _).mpr isStart)
  have changed : (override (worldWith "c.yaml" aliasedText ("GITMETA_A_K", "5")).environment
      aliasedMerged).map (fun result => (result.entryAt? ["b", "k"]).map Shared.value) =
        .ok (some (.int 5)) := rfl
  obtain ⟨other, overridden, other_entry⟩ := exists_of_map_eq_ok changed
  rw [load_runIn rfl rfl reads rfl overridden] at loads
  obtain rfl : other = result := Except.ok.inj (Prod.mk.inj loads).1
  rw [kept] at other_entry
  cases other_entry

end Provenance.Settings
