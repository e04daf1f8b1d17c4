import Provenance.Proofs.Json.RoundTrip
import Provenance.Proofs.Settings.Load
import Provenance.Proofs.World.Written

/-!
Contract: settings that have been saved are loaded again.

Owns:
- `exists_of_save`: what a successful saving leaves behind, in a tree without links;
- `locate_of_save`: the settings file is then where it was saved;
- `load_of_save`: and what is loaded is the saved settings over the defaults.

Does **not** own: the forms of a settings file other than JSON.

## Why the file is found again

Without a settings file, saving makes the one that is sought first.  With one, the search ends where
it ended before, and nothing that comes earlier in it has been made: only a file named `config.json` is
of this form, and that is the first name.
-/

set_option autoImplicit false

namespace Provenance.Settings

open Data (Value Shared)
open Program (Keeps)
open World (Environment)
open World.Disk (HasFile IsLinkFreeBeside)

variable {Time : Type} {world after : World Time} {path given directory : String}
  {settings : Value} {octets : List UInt8}

/-- The environment names no settings file, or one that is there. -/
def NamedFileExists (world : World Time) : Prop :=
  ∀ given, world.environment.get? fileVariable = some given →
    (World.Disk.doesExist (Path.tidy given)).runIn world = (.ok true, world)

/-- No variable names a setting. -/
def NamesNoSetting (environment : Environment) : Prop :=
  ∀ pair ∈ environment, Text.startsWith variableStart pair.1 = true → pair.1 = fileVariable

/-- A path whose ending is not that of another form than JSON. -/
def IsJsonPath (path : String) : Prop :=
  Text.lower (Path.ending path) ∉ [".toml", ".yaml", ".yml"]

/-! ## Where the file is sought -/

theorem firstExisting?_of_exists {rest : List String}
    (isThere : (World.Disk.doesExist path).runIn world = (.ok true, world)) :
    (firstExisting? (path :: rest)).runIn world = (.ok (some path), world) := by
  rw [firstExisting?, Program.runIn_bind_of_ok isThere]
  rfl

/-- What is found is one of the paths. -/
theorem mem_of_firstExisting? {paths : List String} {found : Option String}
    (finds : (firstExisting? paths).runIn world = (.ok found, after)) :
    ∀ path ∈ found, path ∈ paths := by
  have keeps : Keeps (fun _ => True) (firstExisting? paths : Program Time (Option String))
      (fun found => ∀ path ∈ found, path ∈ paths) (fun _ => True) := by
    clear finds
    induction paths with
    | nil => exact .pure fun _ isThere => by cases isThere
    | cons path rest inductionHypothesis =>
        refine ((doesExist_keeps path).weaken (fun _ => id) fun _ _ => trivial).bind
          fun isThere _ => ?_
        cases isThere with
        | true => exact .pure fun other same => Option.some.inj same ▸ List.mem_cons_self
        | false =>
            exact inductionHypothesis.weaken
              (fun _ members other isThere => List.mem_cons_of_mem _ (members other isThere))
              fun _ => id
  exact (keeps world trivial).2.1 found (by rw [finds])

/-- A file that the environment names is the settings file. -/
theorem locate_of_named (isNamed : world.environment.get? fileVariable = some given)
    (isThere : (World.Disk.doesExist (Path.tidy given)).runIn world = (.ok true, world)) :
    locate.runIn world = (.ok (Path.tidy given), world) := by
  have finds : namedFile?.runIn world = (.ok (some (Path.tidy given)), world) := by
    rw [namedFile?, Program.runIn_bind_of_ok (Program.runIn_world world), isNamed]
    exact firstExisting?_of_exists isThere
  rw [locate, Program.runIn_bind_of_ok finds]
  rfl

theorem locate_eq_of_unnamed (unnamed : world.environment.get? fileVariable = none) :
    locate.runIn world = (do
      let world ← Program.world
      let directory ← Program.ofFault (settingsDirectory world.environment)
      let found ← firstExisting? (fileNames.map (Path.join directory))
      pure (found.getD (Path.join directory "config.json"))).runIn world := by
  have noneNamed : namedFile?.runIn world = (.ok none, world) := by
    rw [namedFile?, Program.runIn_bind_of_ok (Program.runIn_world world), unnamed]
    rfl
  rw [locate, Program.runIn_bind_of_ok noneNamed]

/-- What is located without a name is one of the files in the settings directory. -/
theorem exists_file_of_locate (unnamed : world.environment.get? fileVariable = none)
    (located : locate.runIn world = (.ok path, world)) :
    ∃ directory, settingsDirectory world.environment = .ok directory ∧
      ∃ file ∈ fileNames, path = Path.join directory file := by
  rw [locate_eq_of_unnamed unnamed, Program.runIn_bind_of_ok (Program.runIn_world world)] at located
  obtain ⟨directory, _, names, goesOn⟩ := Program.exists_of_bind_eq_ok located
  obtain ⟨home, rfl⟩ := Program.eq_ok_of_ofFault names
  obtain ⟨found, _, finds, ends⟩ := Program.exists_of_bind_eq_ok goesOn
  obtain ⟨path_eq, -⟩ := Prod.mk.inj ends
  obtain rfl := Except.ok.inj path_eq
  have members := mem_of_firstExisting? finds
  refine ⟨directory, home, ?_⟩
  cases found with
  | none => exact ⟨"config.json", List.mem_cons_self, rfl⟩
  | some path =>
      obtain ⟨file, member, rfl⟩ := List.mem_map.mp (members path rfl)
      exact ⟨file, member, rfl⟩

/-- Without a name, a `config.json` in the settings directory is the settings file. -/
theorem locate_of_unnamed (unnamed : world.environment.get? fileVariable = none)
    (home : settingsDirectory world.environment = .ok directory)
    (isThere : (World.Disk.doesExist (Path.join directory "config.json")).runIn world =
      (.ok true, world)) :
    locate.runIn world = (.ok (Path.join directory "config.json"), world) := by
  have finds : (firstExisting? (fileNames.map (Path.join directory))).runIn world =
      (.ok (some (Path.join directory "config.json")), world) := firstExisting?_of_exists isThere
  rw [locate_eq_of_unnamed unnamed, Program.runIn_bind_of_ok (Program.runIn_world world), home,
    Program.runIn_bind_of_ok (Program.runIn_ofFault_ok directory world),
    Program.runIn_bind_of_ok finds]
  rfl

theorem IsJsonPath.ofPath_eq (isJson : IsJsonPath path) : Dialect.ofPath path = .json := by
  unfold IsJsonPath at isJson
  unfold Dialect.ofPath
  split
  · next same => simp [same] at isJson
  · next same => simp [same] at isJson
  · next same => simp [same] at isJson
  · rfl

/-- Of the files in the settings directory, only `config.json` is a JSON file. -/
theorem IsJsonPath.eq_config {file : String} (isJson : IsJsonPath (Path.join directory file))
    (member : file ∈ fileNames) : file = "config.json" := by
  have elsewhere : ∀ {other : String}, other ≠ "" → other ≠ "." → '/' ∉ other.toList →
      Text.lower (Path.ending other) ∈ [".toml", ".yaml", ".yml"] → file ≠ other := by
    rintro other given notHere whole isOther rfl
    rw [IsJsonPath, Path.ending_join directory given notHere whole] at isJson
    exact isJson isOther
  simp only [fileNames, List.mem_cons, List.not_mem_nil, or_false] at member
  rcases member with same | same | same | same
  · exact same
  · exact absurd same (elsewhere (by decide) (by decide) (by decide) (by decide))
  · exact absurd same (elsewhere (by decide) (by decide) (by decide) (by decide))
  · exact absurd same (elsewhere (by decide) (by decide) (by decide) (by decide))

/-- The path of a settings file ends in a name, or it is all slashes. -/
theorem endsInName_of_locate (named : NamedFileExists world)
    (located : locate.runIn world = (.ok path, world)) :
    Path.EndsInName (Text.splitText '/' path) := by
  cases isNamed : world.environment.get? fileVariable with
  | some given =>
      rw [locate_of_named isNamed (named given isNamed)] at located
      obtain rfl := Except.ok.inj (Prod.mk.inj located).1
      exact Path.endsInName_tidy given
  | none =>
      obtain ⟨directory, -, file, member, rfl⟩ := exists_file_of_locate isNamed located
      have names : file ≠ "" ∧ '/' ∉ file.toList := by
        simp only [fileNames, List.mem_cons, List.not_mem_nil, or_false] at member
        rcases member with rfl | rfl | rfl | rfl <;> exact ⟨by decide, by decide⟩
      exact Path.endsInName_join directory names.1 names.2

/-! ## Saving -/

/-- What a successful saving leaves behind: a file with the text of the settings, and a record of
where it is. -/
structure IsSaved (world after : World Time) (settings : Value) (path : String) : Prop where
  located : locate.runIn world = (.ok path, world)
  whole : ((Dialect.ofPath path).draft settings).fault = none
  cwd : after.cwd = world.cwd
  environment : after.environment = world.environment
  trace : after.trace = world.trace ++
    [.logged ⟨World.Level.info, loggerName, "Configuration saved to " ++ path⟩]
  file : HasFile after path
    (Text.Utf8.encode (String.ofList ((Dialect.ofPath path).draft settings).text))

theorem isSaved_of_save (linkFree : world.files.IsLinkFree) (named : NamedFileExists world)
    (saves : (save settings none).runIn world = (.ok path, after)) :
    IsSaved world after settings path := by
  unfold save at saves
  obtain ⟨target, _, locates, makesAndWrites⟩ := Program.exists_of_bind_eq_ok saves
  have located : locate.runIn world = (.ok target, world) :=
    locate_keeps.runIn_eq (congrArg Prod.fst locates)
  obtain ⟨-, rfl⟩ := Prod.mk.inj (located.symm.trans locates)
  have ends := endsInName_of_locate named located
  obtain ⟨_, made, makes, writes⟩ := Program.exists_of_bind_eq_ok makesAndWrites
  have besideMade := World.Disk.makeDirectories_runIn linkFree makes
  obtain ⟨_, emptied, empties, fills⟩ := Program.exists_of_bind_eq_ok writes
  have besideEmptied := (World.Disk.writeText_runIn besideMade.linkFree ends empties).1
  obtain ⟨_, filled, fills, closes⟩ := Program.exists_of_bind_eq_ok fills
  obtain ⟨besideFilled, file⟩ := World.Disk.writeText_runIn besideEmptied.linkFree ends fills
  have beside := (besideMade.trans besideEmptied).trans besideFilled
  cases stops : ((Dialect.ofPath target).draft settings).fault with
  | some fault =>
      rw [stops] at closes
      cases closes
  | none =>
      rw [stops] at closes
      obtain ⟨returns, rfl⟩ := Prod.mk.inj closes
      obtain rfl := Except.ok.inj returns
      refine ⟨located, stops, ?_, ?_, ?_, file.isPath, file.finds⟩
      · change filled.cwd = world.cwd
        rw [beside.rest]
      · change filled.environment = world.environment
        rw [beside.rest]
      · change filled.trace ++ _ = world.trace ++ _
        rw [beside.rest]

/-- The settings file is where it was saved. -/
theorem IsSaved.locate_runIn (saved : IsSaved world after settings path)
    (isJson : IsJsonPath path) (named : NamedFileExists world) :
    locate.runIn after = (.ok path, after) := by
  have located := saved.located
  have isThere := saved.file.doesExist_runIn
  cases isNamed : world.environment.get? fileVariable with
  | some given =>
      rw [locate_of_named isNamed (named given isNamed)] at located
      obtain rfl := Except.ok.inj (Prod.mk.inj located).1
      exact locate_of_named (by rw [saved.environment, isNamed]) isThere
  | none =>
      obtain ⟨directory, home, file, member, rfl⟩ := exists_file_of_locate isNamed located
      obtain rfl := isJson.eq_config member
      exact locate_of_unnamed (by rw [saved.environment, isNamed])
        (by rw [saved.environment, home]) isThere

/-! ## Loading -/

/-- Without a variable that names a setting there is nothing to override. -/
theorem assignments_eq_nil {environment : Environment}
    (unset : NamesNoSetting environment) : assignments environment = [] := by
  refine List.filterMap_eq_nil_iff.mpr fun pair member => ?_
  obtain ⟨name, text⟩ := pair
  have names : variableParts? name = none := by
    unfold variableParts?
    refine if_neg fun isSetting => ?_
    rw [Bool.and_eq_true, decide_eq_true_eq] at isSetting
    exact isSetting.2 (unset (name, text) member isSetting.1)
  simp only [names]
  rfl

/-- A value without cells resolves to itself. -/
theorem resolve_plain : (Shared.plain settings).cells.resolve = id := by
  funext value
  cases value with
  | link cell kind => rfl
  | _ => rfl

/-- A dictionary goes over the defaults, with cells or without. -/
theorem exists_merge_defaults (plain : settings.IsPlain) (isDict : settings.kind = .dict) :
    ∃ merged, merge defaults settings = .ok merged ∧
      mergeShared defaults (.plain settings) = .ok (.plain merged) := by
  cases plain with
  | record _ _ =>
      refine ⟨_, rfl, ?_⟩
      rw [mergeShared, resolve_plain]
      rfl
  | _ => cases isDict

/-- What JSON settings are saved as is read as the settings. -/
theorem read_draft_json (plain : settings.IsPlain)
    (whole : (Dialect.json.draft settings).fault = none) :
    Dialect.json.read
        (Text.Utf8.encode (String.ofList (Dialect.json.draft settings).text)) =
      .ok (.plain settings) := by
  have short : settings.isTooLong = false := by
    have stops := Json.draftAt_fault .asciiPretty plain 0
    rw [show (Json.draftAt .asciiPretty 0 settings).fault = none from whole, Json.tooLongFault]
      at stops
    cases long : settings.isTooLong with
    | false => rfl
    | true =>
        rw [long] at stops
        cases stops
  have admitted := (Json.writes_of_isPlain .asciiPretty plain short 0).admitted
  have decodes : World.Disk.textOf
      (Text.Utf8.encode (String.ofList (Dialect.json.draft settings).text)) =
        .ok (String.ofList (Dialect.json.draft settings).text) := by
    refine World.Disk.textOf_encode ?_ ?_ <;> rw [String.toList_ofList]
    · exact fun character member => (admitted character member).2 rfl
    · intro member
      rcases (admitted '\r' member).1 with visible | ⟨same, -⟩
      · exact absurd visible (by decide)
      · exact absurd same (by decide)
  exact Dialect.read_json decodes (Json.read_draft plain short)

/-- **Settings that have been saved as JSON are loaded again, over the defaults.**

In a tree without links, where the environment names no settings file or one that is there, and no
setting: the settings file is then where it was saved, and loading it gives the saved settings over
the defaults, in the order in which they were merged, and says nothing. -/
theorem load_of_save (plain : settings.IsPlain) (isDict : settings.kind = .dict)
    (linkFree : world.files.IsLinkFree) (named : NamedFileExists world)
    (unset : NamesNoSetting world.environment)
    (saves : (save settings none).runIn world = (.ok path, after)) (isJson : IsJsonPath path) :
    locate.runIn after = (.ok path, after) ∧
      ∃ merged, merge defaults settings = .ok merged ∧
        load.runIn after = (.ok (.plain merged), after) := by
  have saved := isSaved_of_save linkFree named saves
  have located := saved.locate_runIn isJson named
  obtain ⟨merged, merges, mergesShared⟩ := exists_merge_defaults plain isDict
  refine ⟨located, merged, merges, ?_⟩
  have reads : ((readFrom path).runIn after).1 = .ok (.plain settings) := by
    have whole := saved.whole
    have file := saved.file
    rw [isJson.ofPath_eq] at whole file
    refine readFrom_runIn (congrArg Prod.fst file.readOctets_runIn) ?_
    rw [isJson.ofPath_eq]
    exact read_draft_json plain whole
  have overridden : override after.environment (.plain merged) = .ok (.plain merged) := by
    rw [override, saved.environment, assignments_eq_nil unset]
    rfl
  exact load_runIn (congrArg Prod.fst located) (congrArg Prod.fst saved.file.doesExist_runIn) reads
    mergesShared overridden

/-- A world with an empty tree and a home directory that is yet to be made. -/
def bareWorld : World Rat where
  files := ⟨[]⟩
  cwd := []
  environment := [("HOME", "/home/é")]
  script := { otherwise := { takes := 0 } }
  clock := 0

def remoteSettings : Value :=
  .record [("git", .record [("remote", .text "\"é\n😀")]), ("more", .list [.null, .bool true])]

/-- Settings that are saved where nothing has been. -/
theorem load_of_save_bare :
    ∃ after, (save remoteSettings none).runIn bareWorld =
        (.ok "/home/é/.gitmeta/config.json", after) ∧
      locate.runIn after = (.ok "/home/é/.gitmeta/config.json", after) ∧
        ∃ merged, merge defaults remoteSettings = .ok merged ∧
          load.runIn after = (.ok (.plain merged), after) := by
  have plain : remoteSettings.IsPlain := by
    refine .record (by decide) (List.forall_mem_cons.mpr ⟨?_, List.forall_mem_singleton.mpr ?_⟩)
    · exact .record (by decide) (List.forall_mem_singleton.mpr (.text _))
    · exact .list (List.forall_mem_cons.mpr ⟨.null, List.forall_mem_singleton.mpr (.bool true)⟩)
  have linkFree : bareWorld.files.IsLinkFree := by
    intro place target
    unfold World.Files.entry?
    split <;> exact fun isLink => by cases isLink
  have returns : ((save remoteSettings none).runIn bareWorld).1.toOption =
      some "/home/é/.gitmeta/config.json" := by decide +kernel
  obtain ⟨path, after, saves, isPath⟩ := Program.exists_of_toOption (by rw [returns]; rfl)
  obtain rfl := Option.some.inj (isPath.symm.trans returns)
  have isJson : IsJsonPath "/home/é/.gitmeta/config.json" := by
    unfold IsJsonPath
    decide
  exact ⟨after, saves, load_of_save plain rfl linkFree (fun _ isNamed => by cases isNamed)
    (List.forall_mem_singleton.mpr fun isSetting => by cases isSetting) saves isJson⟩

end Provenance.Settings
