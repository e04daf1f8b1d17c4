import Provenance.Proofs.World.Invariant
import Provenance.Proofs.Yaml.Cells
import Provenance.Settings.File

/-!
Contract: how settings are loaded.

Owns:
- `load_keeps`: settings are loaded without a call, and every failure shows in an exit code;
- `withFile_of_ok` and `withFile_of_error`: what becomes of a file, and what is reported of it;
- `load_runIn`: what is loaded where the file is a document that can be merged;
- `holdsCollections_of_readFrom`: links in a file's settings lead to collections.

Does **not** own: what the merged layers and the variables make of an entry.
-/

set_option autoImplicit false

namespace Provenance.Settings

open Data (Value Shared)
open Program (Keeps)

variable {Time : Type} {world : World Time} {path : String} {file merged result : Shared}

/-! ## What is left alone -/

section Keeping

variable {invariant : World Time → Prop}

theorem doesExist_keeps (path : String) :
    Keeps invariant (World.Disk.doesExist path) (fun _ => True) Failure.Shows := by
  unfold World.Disk.doesExist
  split
  · exact .pure trivial
  · exact Keeps.world.bind fun _ _ => .ofRefusal Failure.shows_fault

theorem firstExisting?_keeps (paths : List String) :
    Keeps invariant (firstExisting? paths) (fun _ => True) Failure.Shows := by
  induction paths with
  | nil => exact .pure trivial
  | cons path rest inductionHypothesis =>
      refine (doesExist_keeps path).bind fun isThere _ => ?_
      cases isThere with
      | true => exact .pure trivial
      | false => exact inductionHypothesis

theorem locate_keeps :
    Keeps invariant locate (fun _ => True) Failure.Shows := by
  have named : Keeps invariant namedFile? (fun _ => True) Failure.Shows := by
    refine Keeps.world.bind fun world _ => ?_
    split
    · exact .pure trivial
    · exact firstExisting?_keeps _
  refine named.bind fun found _ => ?_
  cases found with
  | some path => exact .pure trivial
  | none =>
      exact Keeps.world.bind fun _ _ => (Keeps.ofFault Failure.shows_fault).bind fun _ _ =>
        (firstExisting?_keeps _).bind fun _ _ => .pure trivial

theorem readOctets_keeps (path : String) :
    Keeps invariant (World.Disk.readOctets path) (fun _ => True) Failure.Shows := by
  have checks : Keeps invariant (World.Disk.checked path) (fun _ => True) Failure.Shows := by
    unfold World.Disk.checked
    split
    · exact .fail (Failure.shows_fault _)
    · exact .pure trivial
  exact checks.bind fun _ _ => Keeps.world.bind fun _ _ => .ofRefusal Failure.shows_fault

theorem readFrom_keeps (path : String) :
    Keeps invariant (readFrom path) (fun _ => True) Failure.Shows :=
  (readOctets_keeps path).bind fun _ _ => .ofFault Failure.shows_fault

/-- Loading settings calls nothing, and its failures show in an exit code. -/
theorem load_keeps (stable : World.Stable invariant) :
    Keeps invariant load (fun _ => True) Failure.Shows := by
  have merged : ∀ path, Keeps invariant (withFile path) (fun _ => True)
      Failure.Shows := by
    intro path
    have attempted : Keeps invariant (Program.attempt do
          let settings ← readFrom path
          Program.ofFault (mergeShared defaults settings))
        (fun result => ∀ failure, result = .error failure → failure.Shows)
        Failure.Shows := by
      refine .attempt (((readFrom_keeps path).bind fun _ _ =>
        Keeps.ofFault Failure.shows_fault).weaken ?_ ?_)
      · exact fun _ _ _ same => by cases same
      · intro failure severe other same
        obtain rfl := Except.error.inj same
        exact severe
    refine attempted.bind fun result severe => ?_
    cases result with
    | ok settings => exact .pure trivial
    | error failure =>
        simp only
        split
        · exact (Keeps.log stable _ _ _).bind fun _ _ => .pure trivial
        · exact .fail (severe failure rfl)
  refine locate_keeps.bind fun path _ => (doesExist_keeps path).bind fun isThere _ => ?_
  have ends : ∀ settings, Keeps invariant (do
        let world ← Program.world
        Program.ofFault (override world.environment settings))
      (fun _ => True) Failure.Shows :=
    fun settings => Keeps.world.bind fun _ _ => .ofFault Failure.shows_fault
  cases isThere with
  | true => exact (merged path).bind fun settings _ => ends settings
  | false => exact ends (.plain defaults)

end Keeping

/-! ## Reading -/

/-- What is read is what the dialect of the path makes of the octets there. -/
theorem readFrom_runIn {octets : List UInt8}
    (contents : ((World.Disk.readOctets path).runIn world).1 = .ok octets)
    (parses : (Dialect.ofPath path).read octets = .ok file) :
    ((readFrom path).runIn world).1 = .ok file := by
  unfold readFrom
  rw [Program.runIn_bind_of_ok ((readOctets_keeps path).runIn_eq contents), parses,
    Program.runIn_ofFault_ok]

theorem readFrom_of_error {octets : List UInt8} {fault : Failure.Fault}
    (contents : ((World.Disk.readOctets path).runIn world).1 = .ok octets)
    (fails : (Dialect.ofPath path).read octets = .error fault) :
    ((readFrom path).runIn world).1 = .error (.fault fault) := by
  unfold readFrom
  rw [Program.runIn_bind_of_ok ((readOctets_keeps path).runIn_eq contents), fails,
    Program.runIn_ofFault_error]

theorem Dialect.read_json {octets : List UInt8} {text : String} {value : Value}
    (decodes : World.Disk.textOf octets = .ok text) (parses : Json.read text = .ok value) :
    Dialect.json.read octets = .ok (.plain value) := by
  rw [Dialect.read, decodes]
  change Shared.plain <$> Json.read text = _
  rw [parses]
  rfl

theorem Dialect.read_json_of_error {octets : List UInt8} {text : String} {fault : Failure.Fault}
    (decodes : World.Disk.textOf octets = .ok text) (fails : Json.read text = .error fault) :
    Dialect.json.read octets = .error fault := by
  rw [Dialect.read, decodes]
  change Shared.plain <$> Json.read text = _
  rw [fails]
  rfl

theorem Dialect.read_yaml {octets : List UInt8} {text : String} {document : Shared}
    (decodes : World.Disk.textOf octets = .ok text) (parses : Yaml.read text = .ok document)
    (isTruthy : document.isTruthy) : Dialect.yaml.read octets = .ok document := by
  rw [Dialect.read, decodes]
  change (Yaml.read text >>= fun settings => pure _) = _
  rw [parses]
  exact congrArg Except.ok (if_pos isTruthy)

/-! ## Results in a row -/

theorem exists_of_bind_eq_ok {α β ε : Type} {first : Except ε α} {next : α → Except ε β}
    {value : β} (runs : (first >>= next) = .ok value) :
    ∃ found, first = .ok found ∧ next found = .ok value := by
  cases first with
  | error failure => cases runs
  | ok found => exact ⟨found, rfl, runs⟩

theorem exists_of_map_eq_ok {α β ε : Type} {change : α → β} {result : Except ε α} {value : β}
    (runs : change <$> result = .ok value) :
    ∃ found, result = .ok found ∧ change found = value := by
  cases result with
  | error failure => cases runs
  | ok found => exact ⟨found, rfl, Except.ok.inj runs⟩

theorem eq_error_of_bind {α β ε : Type} {first : Except ε α} {next : α → Except ε β} {error : ε}
    (fails : (first >>= next) = .error error) :
    first = .error error ∨ ∃ found, first = .ok found ∧ next found = .error error := by
  cases first with
  | error other => exact .inl (congrArg _ (Except.error.inj fails))
  | ok found => exact .inr ⟨found, rfl, fails⟩

theorem eq_error_of_map {α β ε : Type} {change : α → β} {result : Except ε α} {error : ε}
    (fails : change <$> result = .error error) : result = .error error := by
  cases result with
  | error other => exact congrArg _ (Except.error.inj fails)
  | ok found => cases fails

/-! ## The settings that are loaded -/

/-- The record of a file that is unusable. -/
def unusableRecord (path : String) (failure : Failure) : World.LogRecord where
  level := World.Level.error
  logger := loggerName
  message := "Error loading config from " ++ path ++ ": " ++ failure.message

/-- A file's settings over the defaults. -/
def mergedFile (path : String) : Program Time Shared := do
  let settings ← readFrom path
  Program.ofFault (mergeShared defaults settings)

theorem withFile_of_ok (merges : (mergedFile path).runIn world = (.ok merged, world)) :
    (withFile path).runIn world = (.ok merged, world) := by
  have attempted : (Program.attempt (mergedFile path)).runIn world = (.ok (.ok merged), world) := by
    rw [Program.runIn_attempt, merges]
  exact Program.runIn_bind_of_ok attempted _

/-- A failure that says that the file is unusable is reported, and the defaults stand in its place. -/
theorem withFile_of_error {failure : Failure}
    (fails : (mergedFile path).runIn world = (.error failure, world)) :
    (withFile path).runIn world =
      if saysUnusable failure then
        (.ok (.plain defaults),
          { world with trace := world.trace ++ [.logged (unusableRecord path failure)] })
      else (.error failure, world) := by
  have attempted : (Program.attempt (mergedFile path)).runIn world =
      (.ok (.error failure), world) := by
    rw [Program.runIn_attempt, fails]
  unfold withFile
  refine (Program.runIn_bind_of_ok attempted _).trans ?_
  dsimp only
  split <;> rfl

theorem mergedFile_of_ok (reads : ((readFrom path).runIn world).1 = .ok file) :
    (mergedFile path).runIn world =
      ((mergeShared defaults file).mapError Failure.fault, world) := by
  rw [mergedFile, Program.runIn_bind_of_ok ((readFrom_keeps path).runIn_eq reads)]
  cases mergeShared defaults file <;> rfl

theorem mergedFile_of_error {failure : Failure}
    (fails : ((readFrom path).runIn world).1 = .error failure) :
    (mergedFile path).runIn world = (.error failure, world) :=
  Program.runIn_bind_of_error ((readFrom_keeps path).runIn_eq fails) _

section Found

variable (located : (locate.runIn world).1 = .ok path)
  (isThere : ((World.Disk.doesExist path).runIn world).1 = .ok true)

include located isThere

theorem load_eq_of_found : load.runIn world = (do
    let settings ← withFile path
    let world ← Program.world
    Program.ofFault (override world.environment settings)).runIn world := by
  unfold load
  rw [Program.runIn_bind_of_ok (locate_keeps.runIn_eq located),
    Program.runIn_bind_of_ok ((doesExist_keeps path).runIn_eq isThere)]
  rfl

/-- Once the file has been dealt with, the variables are set. -/
theorem load_of_withFile {settings : Shared} {after : World Time}
    (returns : (withFile path).runIn world = (.ok settings, after))
    (sameVariables : after.environment = world.environment) :
    load.runIn world =
      ((override world.environment settings).mapError Failure.fault, after) := by
  rw [load_eq_of_found located isThere, Program.runIn_bind_of_ok returns,
    Program.runIn_bind_of_ok (Program.runIn_world after), sameVariables]
  cases override world.environment settings <;> rfl

/-- Where the settings file can be read and merged, what is loaded is the merged settings under the
variables. -/
theorem load_runIn (reads : ((readFrom path).runIn world).1 = .ok file)
    (merges : mergeShared defaults file = .ok merged)
    (overridden : override world.environment merged = .ok result) :
    load.runIn world = (.ok result, world) := by
  have withMerged : (withFile path).runIn world = (.ok merged, world) :=
    withFile_of_ok (by rw [mergedFile_of_ok reads, merges]; rfl)
  rw [load_of_withFile located isThere withMerged rfl, overridden]
  rfl

end Found

theorem holdsCollections_plain (value : Value) :
    (Shared.plain value).cells.HoldsCollections :=
  fun _ _ _ holds => by cases holds

/-- The links in what a dialect reads lead to collections. -/
theorem Dialect.holdsCollections_of_read {dialect : Dialect} {octets : List UInt8}
    (reads : dialect.read octets = .ok file) : file.cells.HoldsCollections := by
  cases dialect with
  | toml =>
      unfold Dialect.read at reads
      simp only at reads
      split at reads
      · obtain ⟨value, -, rfl⟩ := exists_of_map_eq_ok reads
        exact holdsCollections_plain value
      · cases reads
  | json =>
      obtain ⟨text, -, parses⟩ := exists_of_bind_eq_ok reads
      obtain ⟨value, -, rfl⟩ := exists_of_map_eq_ok parses
      exact holdsCollections_plain value
  | yaml =>
      obtain ⟨text, -, parses⟩ := exists_of_bind_eq_ok reads
      obtain ⟨document, isRead, returns⟩ := exists_of_bind_eq_ok parses
      obtain rfl := Except.ok.inj returns
      split
      · exact Yaml.holdsCollections_of_read isRead
      · exact holdsCollections_plain _

theorem holdsCollections_of_readFrom (reads : ((readFrom path).runIn world).1 = .ok file) :
    file.cells.HoldsCollections := by
  unfold readFrom at reads
  rw [Program.runIn_bind] at reads
  split at reads
  · next octets after _ =>
      cases parses : (Dialect.ofPath path).read octets with
      | ok settings =>
          rw [parses] at reads
          obtain rfl := Except.ok.inj reads
          exact Dialect.holdsCollections_of_read parses
      | error fault =>
          rw [parses] at reads
          cases reads
  · cases reads

end Provenance.Settings
