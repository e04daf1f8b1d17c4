import Provenance.Proofs.Assembly.WellFormed
import Provenance.Proofs.Reference.Pinned

/-!
Contract: the revision that a reference is pinned at, by the answers of version control.

Owns:
- `Git.Script.linesOf`, the lines that a successful call prints;
- `NamesRevision`, texts that say which commit is checked out, and `IsDetached`, scripts in
  which no tag and no branch does;
- `Service.assembleAlong_pin`, the law that joins an assembly with the pin that is made of it.

Does **not** own: when an assembly returns, and the location of the pin.

## Why a detached commit has no revision

No branch is checked out at a detached commit, and `rev-parse --abbrev-ref` prints the symbol
itself, which is `HEAD`.  It is listed as a branch.  So it comes before the commit, which is chosen
just where nothing is listed.
-/

set_option autoImplicit false

namespace Provenance

open Git.Client

namespace Git.Script

variable {Time : Type}

/-- The lines with content that a call prints by a script; none where it fails. -/
def linesOf (script : Script Time) (arguments : List String) : List String :=
  if (script.printed arguments).2 = 0 then contentLines (script.printed arguments).1 else []

/-- The symbol of what is checked out.  It is printed in place of a branch where there is none. -/
def headSymbol : String := "HEAD"

end Git.Script

namespace Assembly

open World (Timekeeping)

variable {Time : Type}

/-! ## What the answers say of a commit -/

/-- The commit that is printed. -/
def IsCommit (script : Git.Script Time) (text : String) : Prop :=
  (script.printed Arguments.hash).2 = 0 ∧
    Git.firstLine (script.printed Arguments.hash).1 = text

/-- The first tag of the commit, a branch that is checked out, or the commit. -/
def NamesRevision (script : Git.Script Time) (text : String) : Prop :=
  (script.linesOf Arguments.tags).head? = some text ∨
    (text ∈ script.linesOf Arguments.branches ∧ text ≠ Git.Script.headSymbol) ∨
    IsCommit script text

/-- The commit has no tag, and the symbol is printed in place of a branch. -/
def IsDetached (script : Git.Script Time) : Prop :=
  script.linesOf Arguments.tags = [] ∧
    (script.linesOf Arguments.branches).head? = some Git.Script.headSymbol

/-- How the revision comes of the answers. -/
structure IsPinnedAt (script : Git.Script Time) (hash tag : String) : Prop where
  commit : IsCommit script hash
  tagged : ∀ first, (script.linesOf Arguments.tags).head? = some first → tag = first
  /-- What is printed for the branch is taken as it is, -/
  branched : script.linesOf Arguments.tags = [] →
    ∀ first, (script.linesOf Arguments.branches).head? = some first → tag = first
  /-- and the commit only where nothing is. -/
  bare : script.linesOf Arguments.tags = [] → script.linesOf Arguments.branches = [] → tag = hash
  /-- A revision is named unless no branch is checked out. -/
  named : ¬IsDetached script → NamesRevision script tag
  symbolic : IsDetached script → tag = Git.Script.headSymbol
  /-- The symbol of a detached commit names none, but for a commit of this name. -/
  named_iff : hash ≠ Git.Script.headSymbol → (NamesRevision script tag ↔ ¬IsDetached script)

/-! ## What an assembly makes of them -/

namespace Service

variable (service : Service Time) (script : Git.Script Time)

theorem tags_factsBy : (service.factsBy script).tags = script.linesOf Arguments.tags := by
  have found : Finding.list (service.factsBy script).tags =
      .list (Git.Client.readTags (script.printed Arguments.tags)) :=
    get_factsBy .tags
  rw [Finding.list.inj found, Git.Client.readTags, Git.Script.linesOf, ite_not]

theorem branch_factsBy : (service.factsBy script).branch = script.linesOf Arguments.branches := by
  have found : Finding.list (service.factsBy script).branch = service.findingFor script .branch :=
    get_factsBy .branch
  have told : service.told script .branch =
      (service.client.readBranches (script.printed Arguments.branches)).map .list := rfl
  rw [findingFor, told, Git.Client.readBranches] at found
  rw [Git.Script.linesOf]
  by_cases succeeds : (script.printed Arguments.branches).2 = 0
  · rw [if_neg (not_not_intro succeeds)] at found
    rw [if_pos succeeds]
    exact Finding.list.inj found
  · rw [if_pos succeeds] at found
    rw [if_neg succeeds]
    exact Finding.list.inj found

/-- A commit that is found is printed. -/
theorem isCommit_of_hash_ne (hashed : (service.factsBy script).hash ≠ "") :
    IsCommit script (service.factsBy script).hash := by
  have found : Finding.line (service.factsBy script).hash = service.findingFor script .hash :=
    get_factsBy .hash
  have told : service.told script .hash =
      (service.client.readLine Arguments.hash .hash "no hash output"
        (script.printed Arguments.hash)).map .line := rfl
  rw [findingFor, told, Git.Client.readLine] at found
  by_cases fails : (script.printed Arguments.hash).2 ≠ 0
  · rw [if_pos fails] at found
    exact absurd (Finding.line.inj found) hashed
  rw [if_neg fails] at found
  by_cases silent : Text.isBlankText (script.printed Arguments.hash).1 = true
  · rw [if_pos silent] at found
    exact absurd (Finding.line.inj found) hashed
  · rw [if_neg silent] at found
    exact ⟨Classical.not_not.mp fails, (Finding.line.inj found).symm⟩

end Service

/-! ## The revision of a record -/

section Revision

variable {script : Git.Script Time} {record : Record}

/-- The revision of a record by the answers that its facts are read off. -/
theorem isPinnedAt_revision (tags : record.tags = script.linesOf Arguments.tags)
    (branch : record.branch = script.linesOf Arguments.branches)
    (commit : IsCommit script record.hash) :
    IsPinnedAt script record.hash record.revision := by
  have tagged : ∀ first, (script.linesOf Arguments.tags).head? = some first →
      record.revision = first := by
    intro first isFirst
    obtain ⟨rest, listed⟩ := List.head?_eq_some_iff.mp isFirst
    rw [Record.revision, tags, listed]
  have branched : script.linesOf Arguments.tags = [] →
      ∀ first, (script.linesOf Arguments.branches).head? = some first →
        record.revision = first := by
    intro untagged first isFirst
    obtain ⟨rest, listed⟩ := List.head?_eq_some_iff.mp isFirst
    rw [Record.revision, tags, untagged, branch, listed]
  have bare : script.linesOf Arguments.tags = [] → script.linesOf Arguments.branches = [] →
      record.revision = record.hash := by
    intro untagged unlisted
    rw [Record.revision, tags, untagged, branch, unlisted]
  have symbolic : IsDetached script → record.revision = Git.Script.headSymbol :=
    fun detached => branched detached.1 _ detached.2
  have named : ¬IsDetached script → NamesRevision script record.revision := by
    intro attached
    cases listedTags : script.linesOf Arguments.tags with
    | cons first rest =>
        refine .inl ?_
        rw [tagged first (by rw [listedTags, List.head?_cons]), listedTags, List.head?_cons]
    | nil =>
        cases listedBranches : script.linesOf Arguments.branches with
        | cons first rest =>
            have isFirst : (script.linesOf Arguments.branches).head? = some first := by
              rw [listedBranches, List.head?_cons]
            refine .inr (.inl ?_)
            rw [branched listedTags first isFirst]
            refine ⟨List.mem_of_head? isFirst, fun isSymbol => attached ⟨listedTags, ?_⟩⟩
            rw [isFirst, isSymbol]
        | nil =>
            refine .inr (.inr ?_)
            rw [bare listedTags listedBranches]
            exact commit
  refine ⟨commit, tagged, branched, bare, named, symbolic, fun distinct => ⟨?_, named⟩⟩
  intro names detached
  rw [symbolic detached] at names
  rcases names with isTag | ⟨-, other⟩ | isCommit
  · rw [detached.1] at isTag
    cases isTag
  · exact other rfl
  · exact distinct (commit.2.symm.trans isCommit.2)

end Revision

/-- **What a reference is pinned at, by the answers of version control.**  It is the first tag, else
what is printed for the branch, else the commit.  So it names a revision if and only if the commit is
tagged or not detached; an untagged detached commit is pinned at the symbol `HEAD`, though the commit
itself is known.  This holds whether the questions are asked one after another or side by side. -/
theorem Service.assembleAlong_pin [Timekeeping Time] (service kept : Service Time)
    (world after : World Time) (schedule : Pool.Schedule) (directory : String)
    (limit : Option Time) (record : Record) (reference : Reference)
    (assembles : (service.assembleAlong schedule directory limit).runIn world =
      (.ok (kept, record), after))
    (located : record.gitUrl ≠ "") (hashed : record.hash ≠ "")
    (supported : reference.variant = .target ∨ reference.variant = .command)
    (unselected : reference.tag = "") :
    ∃ pinned, reference.pin (some record) = .ok (.moved pinned) ∧
      IsPinnedAt world.script record.hash pinned.tag := by
  refine ⟨reference.moveTo record,
    Reference.pin_of_isEffective supported (Record.isEffective_iff.mpr located), ?_⟩
  have selected : (reference.moveTo record).tag = record.revision := by
    have given : (reference.moveTo record).tag =
        Record.firstGiven reference.tag record.revision := rfl
    rw [given, unselected, Record.firstGiven]
    rfl
  have keeps := service.assembleAlong_keeps (World.lasting_hasScript world.script) directory
    schedule limit
  have told := (keeps world rfl).2.1 (kept, record) (congrArg Prod.fst assembles)
  obtain ⟨baseDir, relDir, gitUrl, same⟩ := told
  obtain ⟨record_eq, -⟩ := Prod.mk.inj same
  have tags : record.tags = world.script.linesOf Arguments.tags := by
    rw [record_eq, ← service.tags_factsBy world.script]
    rfl
  have branch : record.branch = world.script.linesOf Arguments.branches := by
    rw [record_eq, ← service.branch_factsBy world.script]
    rfl
  have commit : IsCommit world.script record.hash := by
    rw [record_eq] at hashed ⊢
    exact service.isCommit_of_hash_ne world.script hashed
  rw [selected]
  exact isPinnedAt_revision tags branch commit

/-- A world with a commit that has no tag, in which a line is printed for the branch. -/
def untaggedWorld (line : String) : World Rat :=
  { worldWithCheckout with
    script := (worldWithCheckout.script.set "describe --exact-match --tags"
      { code := 128, takes := 0 }).set "rev-parse --abbrev-ref HEAD"
      { output := Text.Utf8.encode line, takes := 0 } }

/-- An assembly that returns a record with some location, commit and revision. -/
theorem exists_of_seen {program : Program Rat (Service Rat × Record)} {world : World Rat}
    {gitUrl hash revision : String}
    (seen : (program.runIn world).1.toOption.map
      (fun found => (found.2.gitUrl, found.2.hash, found.2.revision)) =
        some (gitUrl, hash, revision)) :
    ∃ kept record after, program.runIn world = (.ok (kept, record), after) ∧
      record.gitUrl = gitUrl ∧ record.hash = hash ∧ record.revision = revision := by
  have returns : (program.runIn world).1.toOption.isSome := by
    rw [← Option.isSome_map, seen]
    rfl
  obtain ⟨⟨kept, record⟩, after, ends, found⟩ := Program.exists_of_toOption returns
  rw [found] at seen
  obtain ⟨gitUrl_eq, rest⟩ := Prod.mk.inj (Option.some.inj seen)
  obtain ⟨hash_eq, revision_eq⟩ := Prod.mk.inj rest
  exact ⟨kept, record, after, ends, gitUrl_eq, hash_eq, revision_eq⟩

/-- The law at work on a branch, with questions asked side by side. -/
theorem Service.assembleAlong_pin_branch :
    let world := untaggedWorld "main\n"
    let reference : Reference := { name := "build", localPath := "." }
    ∃ kept record after pinned,
      ((answeredService 8 6).assembleAlong .startFirst "code" none).runIn world =
          (.ok (kept, record), after) ∧
        record.gitUrl ≠ "" ∧ record.hash ≠ "" ∧ reference.variant = .target ∧ reference.tag = "" ∧
        reference.pin (some record) = .ok (.moved pinned) ∧ pinned.tag = "main" ∧
        IsPinnedAt world.script record.hash pinned.tag := by
  intro world reference
  obtain ⟨kept, record, after, assembles, gitUrl_eq, hash_eq, -⟩ :=
    @exists_of_seen ((answeredService 8 6).assembleAlong .startFirst "code" none) world
      "host.org/team/repo" "0123abcd" "main" (by decide +kernel)
  have located : record.gitUrl ≠ "" := by
    rw [gitUrl_eq]
    decide
  have hashed : record.hash ≠ "" := by
    rw [hash_eq]
    decide
  obtain ⟨pinned, pins, isPinnedAt⟩ := assembleAlong_pin _ kept world after .startFirst "code" none
    record reference assembles located hashed (.inl rfl) rfl
  have untagged : world.script.linesOf Arguments.tags = [] := by decide +kernel
  have printed : (world.script.linesOf Arguments.branches).head? = some "main" := by decide +kernel
  exact ⟨kept, record, after, pinned, assembles, located, hashed, rfl, rfl, pins,
    isPinnedAt.branched untagged "main" printed, isPinnedAt⟩

/-- A reference is pinned at `HEAD` though no tag and no branch is there to name the commit, and the
commit itself is known. -/
theorem Service.assemble_pin_detached :
    let world := untaggedWorld "HEAD\n"
    let reference : Reference := { name := "build", localPath := "." }
    ∃ kept record after pinned,
      ((answeredService 8 1).assemble "code" none).runIn world = (.ok (kept, record), after) ∧
        record.gitUrl = "host.org/team/repo" ∧ record.hash = "0123abcd" ∧ reference.tag = "" ∧
        reference.pin (some record) = .ok (.moved pinned) ∧ IsDetached world.script ∧
        pinned.tag = "HEAD" ∧ pinned.tag ≠ record.hash ∧ ¬NamesRevision world.script pinned.tag := by
  intro world reference
  obtain ⟨kept, record, after, assembles, gitUrl_eq, hash_eq, revision_eq⟩ :=
    @exists_of_seen ((answeredService 8 1).assemble "code" none) world
      "host.org/team/repo" "0123abcd" "HEAD" (by decide +kernel)
  have located : record.gitUrl ≠ "" := by
    rw [gitUrl_eq]
    decide
  have pins : reference.pin (some record) = .ok (.moved (reference.moveTo record)) :=
    Reference.pin_of_isEffective (.inl rfl) (Record.isEffective_iff.mpr located)
  have tag_eq : (reference.moveTo record).tag = "HEAD" := revision_eq
  have detached : IsDetached world.script := by
    unfold IsDetached
    decide +kernel
  have unnamed : ¬NamesRevision world.script "HEAD" := by
    unfold NamesRevision IsCommit
    decide +kernel
  refine ⟨kept, record, after, _, assembles, gitUrl_eq, hash_eq, rfl, pins, detached, tag_eq, ?_, ?_⟩
  · rw [tag_eq, hash_eq]
    decide
  · rw [tag_eq]
    exact unnamed

end Assembly
end Provenance
