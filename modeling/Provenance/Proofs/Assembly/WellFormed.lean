import Provenance.Proofs.Assembly.Gaps
import Provenance.Proofs.Assembly.Run
import Provenance.Proofs.World.Location

/-!
Contract: every record that an assembly returns is well formed.

Owns:
- `World.SharesGround`, worlds in which the same is found, and that assemblies stay in them;
- `Finding.IsTidy`, and that whatever stands in the facts is tidy;
- `Service.gaps_eq`, the gaps of the facts in the order of the fields;
- `IsWellFormed` and `Service.assembleAlong_isWellFormed`, the law that joins them.

Does **not** own: when an assembly returns.
-/

set_option autoImplicit false

namespace Provenance

open Failure (Problem GapField)
open Program (Keeps)
open World (Timekeeping Lasting)

variable {Time : Type}

/-! ## The ground of an assembly -/

namespace World

/-- Worlds with the same files, seen from the same directory, and with the same answers. -/
structure SharesGround (world current : World Time) : Prop where
  files : current.files = world.files
  cwd : current.cwd = world.cwd
  script : current.script = world.script

theorem sharesGround_refl (world : World Time) : world.SharesGround world :=
  ⟨rfl, rfl, rfl⟩

theorem lasting_sharesGround (world : World Time) :
    Lasting world.script world.SharesGround where
  stable := fun _ _ _ shares => ⟨shares.files, shares.cwd, shares.script⟩
  timed := fun _ _ shares => ⟨shares.files, shares.cwd, shares.script⟩
  called := fun _ _ shares => ⟨shares.files, shares.cwd, shares.script⟩
  tells := fun _ shares => shares.script

end World

namespace Assembly

/-! ## What stands in the facts -/

/-- One line, or lines with content. -/
def Finding.IsTidy : Finding → Prop
  | .line text => Text.IsLine text
  | .list texts => ∀ text ∈ texts, text ≠ "" ∧ Text.IsLine text

theorem Finding.isTidy_fallback (query : Query) : (Finding.fallback query).IsTidy := by
  have empty : Text.IsLine "" := ⟨by decide, by decide, by decide⟩
  have zero : Text.IsLine "0" := ⟨by decide, by decide, by decide⟩
  have none_listed : ∀ text ∈ ([] : List String), text ≠ "" ∧ Text.IsLine text :=
    fun _ member => nomatch member
  cases query with
  | remoteUrl => exact empty
  | hash => exact empty
  | shortHash => exact empty
  | branch => exact none_listed
  | tags => exact none_listed
  | timestamp => exact zero

namespace Service

variable {service : Service Time} {script : Git.Script Time}

theorem isTidy_of_readLine {client : Git.Client Time} {arguments : List String}
    {field : GapField} {silence : String} {printed : String × Int} {finding : Finding}
    (unified : '\r' ∉ printed.1.toList)
    (reads : (client.readLine arguments field silence printed).map .line = .ok finding) :
    finding.IsTidy := by
  unfold Git.Client.readLine at reads
  split at reads
  · cases reads
  split at reads
  · cases reads
  · obtain rfl := Except.ok.inj reads
    exact Git.isLine_firstLine unified

/-- What is read off an answer is tidy. -/
theorem isTidy_of_told {query : Query} {finding : Finding}
    (told : service.told script query = .ok finding) : finding.IsTidy := by
  have unified : ∀ arguments, '\r' ∉ (script.printed arguments).1.toList :=
    fun _ => Git.not_mem_outputText _
  unfold Service.told Service.read at told
  cases query with
  | remoteUrl => exact isTidy_of_readLine (unified _) told
  | hash => exact isTidy_of_readLine (unified _) told
  | shortHash => exact isTidy_of_readLine (unified _) told
  | branch =>
      simp only [Git.Client.readBranches] at told
      split at told
      · cases told
      · obtain rfl := Except.ok.inj told
        exact fun line member => Git.isLine_of_mem_contentLines (unified _) member
  | tags =>
      obtain rfl := Except.ok.inj told
      simp only [Git.Client.readTags]
      split
      · exact Finding.isTidy_fallback .tags
      · exact fun line member => Git.isLine_of_mem_contentLines (unified _) member
  | timestamp =>
      obtain rfl := Except.ok.inj told
      simp only [Git.Client.readTimestamp]
      split
      · exact Finding.isTidy_fallback .timestamp
      · exact Git.isLine_firstLine (unified _)

/-- **Every fact is tidy**, whether it is read or stands in for a gap. -/
theorem isTidy_get_factsBy (query : Query) : ((service.factsBy script).get query).IsTidy := by
  rw [get_factsBy, findingFor]
  cases told : service.told script query with
  | ok finding => exact isTidy_of_told told
  | error failure => exact Finding.isTidy_fallback query

/-! ## The gaps in order -/

/-- The fields that can have a gap, in the order of their queries. -/
def gapOrder : List GapField :=
  [.remoteUrl, .hash, .shortHash, .branch]

theorem fieldName?_of_gap? {field : GapField} {problem : Problem}
    (leaves : service.gap? script (queryOf field) = some problem) :
    problem.fieldName? = some field.name := by
  unfold gap? at leaves
  rcases told_cases service script (queryOf field) with ⟨finding, told, -⟩ |
    ⟨other, detail, isQuery, told⟩
  · rw [told] at leaves
    cases leaves
  · rw [told] at leaves
    obtain rfl := queryOf_injective isQuery
    obtain rfl := Option.some.inj leaves
    rfl

/-- The gaps of the facts stand in the order of the fields. -/
theorem gaps_eq :
    (service.factsBy script).gaps =
      gapOrder.filterMap fun field => service.gap? script (queryOf field) := by
  have tags : service.gap? script .tags = none := rfl
  have timestamp : service.gap? script .timestamp = none := rfl
  have order : Query.all = gapOrder.map queryOf ++ [.tags, .timestamp] := rfl
  rw [gaps_factsBy, order, List.filterMap_append, List.filterMap_map,
    List.filterMap_cons_none tags, List.filterMap_cons_none timestamp, List.filterMap_nil,
    List.append_nil]
  rfl

/-- The fields that have a gap. -/
def gapFields (service : Service Time) (script : Git.Script Time) : List GapField :=
  gapOrder.filter fun field => (service.gap? script (queryOf field)).isSome

/-- Each gap names the field that it is a gap of. -/
theorem fieldNames_of_gaps :
    (service.factsBy script).gaps.map Problem.fieldName? =
      (service.gapFields script).map fun field => some field.name := by
  rw [gaps_eq, gapFields]
  induction gapOrder with
  | nil => rfl
  | cons field rest inductionHypothesis =>
      rw [List.filterMap_cons, List.filter_cons]
      cases leaves : service.gap? script (queryOf field) with
      | none => exact inductionHypothesis
      | some problem =>
          have named := fieldName?_of_gap? leaves
          simp only [Option.isSome_some, if_true, List.map_cons, inductionHypothesis, named]

/-- A field with a gap is empty. -/
theorem lacks_of_gap? {field : GapField} (baseDir relDir gitUrl : String)
    (leaves : (service.gap? script (queryOf field)).isSome) :
    ((service.factsBy script).toRecord baseDir relDir gitUrl).lacks field = true := by
  rw [lacks_toRecord, get_factsBy, findingFor]
  unfold gap? at leaves
  cases told : service.told script (queryOf field) with
  | ok finding =>
      rw [told] at leaves
      cases leaves
  | error failure => cases field <;> rfl

end Service

/-! ## Well-formed records -/

/-- What holds of every record that is returned for a directory, and of the gaps that are kept with
it. -/
structure IsWellFormed (world : World Time) (directory : String) (kept : Service Time)
    (record : Record) : Prop where
  /-- The location is that of the remote, and it is known just if there is one. -/
  canonical : record.gitUrl = Remote.canonical record.remoteUrl
  located : record.gitUrl = "" ↔ record.remoteUrl = ""
  lines : ∀ text ∈ [record.remoteUrl, record.hash, record.shortHash, record.timestamp],
    Text.IsLine text
  names : ∀ text ∈ record.branch ++ record.tags, text ≠ "" ∧ Text.IsLine text
  /-- The relative path leads from the root of the repository to what the directory stands for. -/
  placed : ∃ place, World.resolve world.files world.cwd directory = .ok place ∧
    Location.IsBelow record.baseDir place record.relDir
  silent : kept.warning? = none ↔ kept.lastErrors = []
  /-- The warning is the last gap. -/
  warned : ∀ given : kept.lastErrors ≠ [], kept.warning? = some (kept.lastErrors.getLast given)
  /-- The gaps stand in the order of the fields, one for each at most, and these fields are empty. -/
  ordered : ∃ fields : List GapField,
    fields.Sublist [.remoteUrl, .hash, .shortHash, .branch] ∧
      kept.lastErrors.map Problem.fieldName? = fields.map (fun field => some field.name) ∧
        ∀ field ∈ fields, record.lacks field = true

/-- Facts and a root amount to a well-formed record. -/
theorem isWellFormed_toRecord {service kept : Service Time} {world : World Time}
    {directory baseDir relDir gitUrl : String}
    (errors : kept.lastErrors = (service.factsBy world.script).gaps)
    (canonical : gitUrl = Remote.canonical (service.factsBy world.script).remoteUrl)
    (located : gitUrl = "" ↔ (service.factsBy world.script).remoteUrl = "")
    (placed : ∃ place, World.resolve world.files world.cwd directory = .ok place ∧
      Location.IsBelow baseDir place relDir) :
    IsWellFormed world directory kept
      ((service.factsBy world.script).toRecord baseDir relDir gitUrl) where
  canonical := canonical
  located := located
  lines := by
    have tidy : ∀ query, ((service.factsBy world.script).get query).IsTidy :=
      Service.isTidy_get_factsBy
    simp only [List.forall_mem_cons]
    exact ⟨tidy .remoteUrl, tidy .hash, tidy .shortHash, tidy .timestamp,
      fun _ member => nomatch member⟩
  names := by
    have tidy : ∀ query, ((service.factsBy world.script).get query).IsTidy :=
      Service.isTidy_get_factsBy
    intro text member
    rcases List.mem_append.mp member with branch | tag
    · exact tidy .branch text branch
    · exact tidy .tags text tag
  placed := placed
  silent := List.getLast?_eq_none_iff
  warned := fun given => List.getLast?_eq_some_getLast given
  ordered := by
    refine ⟨service.gapFields world.script, List.filter_sublist, ?_, ?_⟩
    · rw [errors]
      exact Service.fieldNames_of_gaps
    · intro field member
      exact Service.lacks_of_gap? baseDir relDir gitUrl (List.mem_filter.mp member).2

/-- **Every record that is returned is well formed**, whatever version control answers, whatever is in
the file tree, and whether its questions are asked one after another or side by side.  The current
directory is a proper place, as it is in every world that is described (`World.isProper_extend`). -/
theorem Service.assembleAlong_isWellFormed [Timekeeping Time] (service kept : Service Time)
    (world after : World Time) (schedule : Pool.Schedule) (directory : String)
    (limit : Option Time) (record : Record)
    (proper : World.IsProper world.cwd)
    (assembles : (service.assembleAlong schedule directory limit).runIn world =
      (.ok (kept, record), after)) :
    IsWellFormed world directory kept record := by
  have concludes : ∀ baseDir, Keeps world.SharesGround
      (Service.conclude directory baseDir (service.factsBy world.script))
      (fun found => ∀ kept : Service Time, kept.lastErrors = found.2 →
        IsWellFormed world directory kept found.1)
      Failure.Shows := by
    intro baseDir
    apply (locationOf_keeps _).bind
    intro gitUrl isLocation
    apply (relativeDirectory_keeps directory baseDir).bind
    intro relDir isRelative
    obtain ⟨current, shares, places⟩ := isRelative
    rw [shares.files, shares.cwd] at places
    have placed := Location.isBelow_of_relativeTo
      (fun place resolves => World.isProper_of_resolve proper resolves) places
    exact .pure fun kept errors =>
      isWellFormed_toRecord errors isLocation.1 isLocation.2 placed
  have keeps := service.assembleAlong_keeps_concluded (World.lasting_sharesGround world) directory
    concludes schedule limit
  obtain ⟨-, returned, -⟩ := keeps world world.sharesGround_refl
  exact returned (kept, record) (congrArg Prod.fst assembles) kept rfl

/-- A world with a repository in `/repo`, in which the time of the commit is unknown. -/
def worldWithCheckout : World Rat :=
  let answer (output : String) : Git.Answer Rat := { output := Text.Utf8.encode output, takes := 0 }
  { answeringWorld 0 with
    files := ⟨[(["git"], .file [] true), (["repo"], .directory), (["repo", "src"], .directory),
      (["code"], .link "repo/src")]⟩
    script := {
      answers := [("rev-parse --show-toplevel", answer "/repo/\n"),
        ("config --get remote.origin.url", answer " git@host.org:team/repo.git\r\nmore\n"),
        ("rev-parse --abbrev-ref HEAD", answer " main \n\n"),
        ("log -1 --format=%ct", { code := 128, takes := 0 })]
      otherwise := answer "0123abcd\n" } }

/-- The law at work: a link into a repository, asked about side by side. -/
theorem Service.assembleAlong_isWellFormed_linked :
    World.IsProper worldWithCheckout.cwd ∧
      ∃ kept record after,
        ((answeredService 8 6).assembleAlong .startFirst "code" none).runIn worldWithCheckout =
            (.ok (kept, record), after) ∧
          record.relDir = "src" ∧ IsWellFormed worldWithCheckout "code" kept record := by
  have seen : (((answeredService 8 6).assembleAlong .startFirst "code" none).runIn
      worldWithCheckout).1.toOption.map (fun found => found.2.relDir) = some "src" := by
    decide +kernel
  have returns : (((answeredService 8 6).assembleAlong .startFirst "code" none).runIn
      worldWithCheckout).1.toOption.isSome := by
    rw [← Option.isSome_map, seen]
    rfl
  obtain ⟨⟨kept, record⟩, after, assembles, found⟩ := Program.exists_of_toOption returns
  rw [found] at seen
  have proper : World.IsProper worldWithCheckout.cwd := World.isProper_nil
  exact ⟨proper, kept, record, after, assembles, Option.some.inj seen,
    assembleAlong_isWellFormed _ kept worldWithCheckout after _ "code" none record proper assembles⟩

end Assembly
end Provenance
