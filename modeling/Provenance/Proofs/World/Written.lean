import Provenance.Proofs.Path
import Provenance.Proofs.Text.Ascii
import Provenance.Proofs.World.Invariant
import Provenance.World.Disk

/-!
Contract: what is written to a tree without links is found there again.

Owns:
- `Files.IsLinkFree`, and what keeps it;
- `Files.walkWith_put`: a path leads to the file that has been put where it led;
- `Disk.writeText_runIn`: a text that has been written can be read at its path.

Does **not** own: trees with links, and which paths are written to.

## Why a path may not end in a slash

Where nothing is, a path with a slash at its end leads to a place, and a file can be put there.  But
then the path asks for what is inside that file.  `Path.EndsInName` leaves such paths out; the paths of
settings files are none of them.
-/

set_option autoImplicit false

namespace Provenance.World

open Failure (FileFault)

namespace Files

variable {files : Files} {place other : Place} {entry : Entry}

/-! ## Entries -/

theorem lookup_putEntry_self (entries : List (Place × Entry)) :
    (putEntry place entry entries).lookup place = some entry := by
  induction entries with
  | nil => simp [putEntry]
  | cons first rest inductionHypothesis =>
      rw [putEntry]
      by_cases same : first.1 = place
      · rw [if_pos same]
        simp
      · rw [if_neg same, List.lookup_cons, beq_eq_false_iff_ne.mpr (Ne.symm same)]
        exact inductionHypothesis

theorem lookup_putEntry_of_ne (different : other ≠ place) (entries : List (Place × Entry)) :
    (putEntry place entry entries).lookup other = entries.lookup other := by
  induction entries with
  | nil => simp [putEntry, different]
  | cons first rest inductionHypothesis =>
      rw [putEntry]
      by_cases same : first.1 = place
      · rw [if_pos same, List.lookup_cons, List.lookup_cons, same,
          beq_eq_false_iff_ne.mpr different]
      · rw [if_neg same, List.lookup_cons, List.lookup_cons, inductionHypothesis]

theorem entry?_put_self (below : place ≠ []) :
    Files.entry? (files.put place entry) place = some entry := by
  unfold entry?
  rw [if_neg (by simpa using below)]
  exact lookup_putEntry_self _

theorem entry?_put_of_ne (different : other ≠ place) :
    Files.entry? (files.put place entry) other = files.entry? other := by
  unfold entry?
  split
  · rfl
  · exact lookup_putEntry_of_ne different _

/-- A tree without symbolic links. -/
def IsLinkFree (files : Files) : Prop :=
  ∀ place target, files.entry? place ≠ some (.link target)

theorem IsLinkFree.put (linkFree : files.IsLinkFree) (noLink : ∀ target, entry ≠ .link target) :
    (files.put place entry).IsLinkFree := by
  intro other target
  by_cases same : other = place
  · subst same
    by_cases root : other = []
    · subst root
      exact fun isLink => by cases isLink
    · rw [entry?_put_self root]
      exact fun isLink => noLink target (Option.some.inj isLink)
  · rw [entry?_put_of_ne same]
    exact linkFree other target

theorem IsLinkFree.makeDirectory {made : Files} {cwd : Place} {path : String}
    (linkFree : files.IsLinkFree) (makes : files.makeDirectory cwd path = .ok made) :
    made.IsLinkFree := by
  unfold Files.makeDirectory at makes
  cases leads : files.locate cwd false path with
  | error fault =>
      rw [leads] at makes
      cases makes
  | ok target =>
      rw [leads] at makes
      simp only [bind, Except.bind] at makes
      split at makes
      · obtain rfl := Except.ok.inj makes
        exact linkFree.put fun _ isLink => by cases isLink
      · cases makes

/-! ## Walking -/

variable {followLast : Bool} {follow follow' : Place → List String → Except FileFault Target}
  {segments : List String} {here : Place} {target : Target}

/-- A walk ends with what is at the place that it leads to. -/
theorem entry_of_walkWith (linkFree : files.IsLinkFree)
    (walks : files.walkWith followLast follow here segments = .ok target) :
    target.entry = files.entry? target.place := by
  induction segments generalizing here with
  | nil =>
      obtain rfl := Except.ok.inj walks
      rfl
  | cons segment rest inductionHypothesis =>
      rw [walkWith] at walks
      split at walks
      · exact inductionHypothesis walks
      split at walks
      · exact inductionHypothesis walks
      split at walks
      · cases walks
      dsimp only at walks
      split at walks
      · next absent =>
          split at walks
          · obtain rfl := Except.ok.inj walks
            exact absent.symm
          · cases walks
      · exact inductionHypothesis walks
      · next isFile =>
          split at walks
          · obtain rfl := Except.ok.inj walks
            exact isFile.symm
          · cases walks
      · next isLink => exact absurd isLink (linkFree _ _)

/-- **A path leads to the file that has been put where it led**, if there was no directory. -/
theorem walkWith_put (linkFree : files.IsLinkFree) (ends : Path.EndsInName segments)
    (walks : files.walkWith followLast follow here segments = .ok target)
    (noDirectory : target.entry ≠ some .directory) (octets : List UInt8) (isExecutable : Bool) :
    (files.put target.place (.file octets isExecutable)).walkWith followLast follow' here segments =
      .ok ⟨target.place, some (.file octets isExecutable)⟩ := by
  have entry_eq := entry_of_walkWith linkFree walks
  have below : target.place ≠ [] := by
    intro root
    rw [root] at entry_eq
    exact noDirectory entry_eq
  induction segments generalizing here with
  | nil =>
      obtain rfl := Except.ok.inj walks
      rw [walkWith, entry?_put_self below]
  | cons segment rest inductionHypothesis =>
      rw [walkWith] at walks ⊢
      by_cases idle : segment = "" ∨ segment = "."
      · rw [if_pos idle] at walks ⊢
        exact inductionHypothesis ends.tail walks
      rw [if_neg idle] at walks ⊢
      by_cases back : segment = ".."
      · rw [if_pos back] at walks ⊢
        exact inductionHypothesis ends.tail walks
      rw [if_neg back] at walks ⊢
      by_cases tooLong : nameLimit < segment.utf8ByteSize
      · rw [if_pos tooLong] at walks
        cases walks
      rw [if_neg tooLong] at walks ⊢
      cases there : files.entry? (here ++ [segment]) with
      | none =>
          simp only [there] at walks
          split at walks
          · next empty =>
              obtain rfl := Except.ok.inj walks
              obtain rfl := ends.eq_nil (not_or.mp idle).1 empty
              simp only [entry?_put_self below]
              rfl
          · cases walks
      | some found =>
          cases found with
          | directory =>
              -- The walk passes through a directory, which is not the place that has changed.
              have elsewhere : here ++ [segment] ≠ target.place := by
                intro same
                rw [same, ← entry_eq] at there
                exact noDirectory there
              simp only [there] at walks
              simp only [entry?_put_of_ne elsewhere, there]
              exact inductionHypothesis ends.tail walks
          | file old wasExecutable =>
              simp only [there] at walks
              split at walks
              · next last =>
                  obtain rfl := Except.ok.inj walks
                  simp only [entry?_put_self below, if_pos last]
              · cases walks
          | link linked => exact absurd there (linkFree _ _)

/-! ## Writing -/

variable {written : Files} {cwd : Place} {path : String} {octets : List UInt8}

theorem locate_put (linkFree : files.IsLinkFree) (ends : Path.EndsInName (Text.splitText '/' path))
    (leads : files.locate cwd true path = .ok target)
    (noDirectory : target.entry ≠ some .directory) (isExecutable : Bool) :
    (files.put target.place (.file octets isExecutable)).locate cwd true path =
      .ok ⟨target.place, some (.file octets isExecutable)⟩ := by
  unfold locate at leads ⊢
  split at leads
  · cases leads
  split at leads
  · cases leads
  · next given short =>
      rw [if_neg given, if_neg short]
      exact walkWith_put linkFree ends leads noDirectory octets isExecutable

/-- What is written at a path is a file that is found at it, in a tree without links. -/
theorem find_of_write (linkFree : files.IsLinkFree)
    (ends : Path.EndsInName (Text.splitText '/' path))
    (writes : files.write cwd path octets = .ok written) :
    written.IsLinkFree ∧
      ∃ place isExecutable, written.find cwd path = .ok (place, .file octets isExecutable) := by
  unfold write at writes
  cases leads : files.locate cwd true path with
  | error fault =>
      rw [leads] at writes
      cases writes
  | ok target =>
      rw [leads] at writes
      have finds : target.entry ≠ some .directory → ∀ isExecutable,
          (files.put target.place (.file octets isExecutable)).IsLinkFree ∧
            (files.put target.place (.file octets isExecutable)).find cwd path =
              .ok (target.place, .file octets isExecutable) := by
        intro noDirectory isExecutable
        have noLink : ∀ linked, Entry.file octets isExecutable ≠ .link linked :=
          fun _ isLink => by cases isLink
        refine ⟨linkFree.put noLink, ?_⟩
        rw [find, locate_put linkFree ends leads noDirectory isExecutable]
        rfl
      simp only [bind, Except.bind] at writes
      cases there : target.entry with
      | none =>
          rw [there] at writes
          obtain rfl := Except.ok.inj writes
          have found := finds (by rw [there]; simp) false
          exact ⟨found.1, _, _, found.2⟩
      | some entry =>
          cases entry with
          | file old isExecutable =>
              rw [there] at writes
              obtain rfl := Except.ok.inj writes
              have found := finds (by rw [there]; simp) isExecutable
              exact ⟨found.1, _, _, found.2⟩
          | directory =>
              rw [there] at writes
              cases writes
          | link linked =>
              rw [there] at writes
              cases writes

end Files

/-! ## Programs -/

namespace Disk

open Program (Keeps)

variable {Time : Type} {world after : World Time} {path text : String}

/-- A text without carriage returns is read from its octets, if it is ASCII. -/
theorem textOf_encode (ascii : ∀ character ∈ text.toList, character.toNat < 128)
    (noReturn : '\r' ∉ text.toList) : textOf (Text.Utf8.encode text) = .ok text := by
  rw [textOf, Text.Utf8.decodeStrict_encode_of_ascii ascii]
  simp only [Text.Utf8.unifyLineEnds_of_not_mem noReturn, String.ofList_toList]

/-- A world with a file at a path, which the operating system can be given. -/
structure HasFile (world : World Time) (path : String) (octets : List UInt8) : Prop where
  isPath : Text.contains '\x00' path = false
  finds : ∃ place isExecutable,
    world.files.find world.cwd path = .ok (place, .file octets isExecutable)

namespace HasFile

variable {octets : List UInt8}

theorem doesExist_runIn (isThere : HasFile world path octets) :
    (doesExist path).runIn world = (.ok true, world) := by
  obtain ⟨place, isExecutable, finds⟩ := isThere.finds
  rw [doesExist, isThere.isPath, if_neg Bool.false_ne_true,
    Program.runIn_bind_of_ok (Program.runIn_world world), Files.doesExist, finds]
  rfl

theorem readOctets_runIn (isThere : HasFile world path octets) :
    (readOctets path).runIn world = (.ok octets, world) := by
  obtain ⟨place, isExecutable, finds⟩ := isThere.finds
  have checks : (checked path : Program Time Unit).runIn world = (.ok (), world) := by
    rw [checked, isThere.isPath, if_neg Bool.false_ne_true, Program.runIn_pure]
  rw [readOctets, Program.runIn_bind_of_ok checks,
    Program.runIn_bind_of_ok (Program.runIn_world world), Files.read, finds]
  rfl

end HasFile

/-- A world that differs from another in the files at most, which have no links. -/
structure IsLinkFreeBeside (world after : World Time) : Prop where
  linkFree : after.files.IsLinkFree
  rest : after = { world with files := after.files }

/-- **A text that has been written is at its path**, and nothing but the tree has changed. -/
theorem writeText_runIn (linkFree : world.files.IsLinkFree)
    (ends : Path.EndsInName (Text.splitText '/' path))
    (writes : (writeText path text).runIn world = (.ok (), after)) :
    IsLinkFreeBeside world after ∧ HasFile after path (Text.Utf8.encode text) := by
  unfold writeText at writes
  obtain ⟨_, middle, checks, follows⟩ := Program.exists_of_bind_eq_ok writes
  have isPath : Text.contains '\x00' path = false ∧ middle = world := by
    unfold checked at checks
    split at checks
    · cases checks
    · next noNull => exact ⟨by simpa using noNull, (Prod.mk.inj checks).2.symm⟩
  obtain ⟨isPath, rfl⟩ := isPath
  rw [Program.runIn_bind_of_ok (Program.runIn_world middle)] at follows
  cases written : middle.files.write middle.cwd path (Text.Utf8.encode text) with
  | error fault =>
      rw [written] at follows
      cases follows
  | ok files =>
      rw [written] at follows
      obtain rfl := (Prod.mk.inj follows).2
      have found := Files.find_of_write linkFree ends written
      exact ⟨⟨found.1, rfl⟩, isPath, found.2⟩

/-! ## Directories -/

theorem makeDirectory_keeps (mayExist : Bool) (path : String) :
    Keeps (IsLinkFreeBeside world) (makeDirectory mayExist path) (fun _ => True)
      (fun _ => True) := by
  have checks : Keeps (IsLinkFreeBeside world) (checked path : Program Time Unit) (fun _ => True)
      (fun _ => True) := by
    unfold checked
    split
    · exact .fail trivial
    · exact .pure trivial
  refine checks.bind fun _ _ => Keeps.world.bind fun seen beside => ?_
  cases makes : seen.files.makeDirectory seen.cwd path with
  | ok files =>
      refine .change fun current besides => ⟨beside.linkFree.makeDirectory makes, ?_⟩
      rw [besides.rest]
  | error fault =>
      simp only
      split
      · exact .pure trivial
      · exact .fail trivial

theorem makeDirectoriesUpTo_keeps (count : Nat) (path : String) :
    Keeps (IsLinkFreeBeside world) (makeDirectoriesUpTo count path) (fun _ => True)
      (fun _ => True) := by
  induction count generalizing path with
  | zero => exact makeDirectory_keeps true path
  | succ count inductionHypothesis =>
      have attempted : Keeps (IsLinkFreeBeside world)
          (Program.attempt (makeDirectory true path : Program Time Unit)) (fun _ => True)
          (fun _ => True) :=
        .attempt ((makeDirectory_keeps true path).weaken (fun _ _ => trivial) fun _ _ => trivial)
      refine attempted.bind fun result _ => ?_
      cases result with
      | ok made => exact .pure trivial
      | error failure =>
          simp only
          split
          · exact (inductionHypothesis _).bind fun _ _ => makeDirectory_keeps true path
          · exact .fail trivial

/-- Making directories makes no links, and changes nothing but the tree. -/
theorem makeDirectories_runIn (linkFree : world.files.IsLinkFree) {result : Except Failure Unit}
    (makes : (makeDirectories path).runIn world = (result, after)) :
    IsLinkFreeBeside world after := by
  have kept := (makeDirectoriesUpTo_keeps (Path.segments path).length path world
    ⟨linkFree, rfl⟩).1
  rwa [show (makeDirectoriesUpTo (Path.segments path).length path).runIn world = (result, after)
    from makes] at kept

theorem IsLinkFreeBeside.trans {middle : World Time} (first : IsLinkFreeBeside world middle)
    (second : IsLinkFreeBeside middle after) : IsLinkFreeBeside world after where
  linkFree := second.linkFree
  rest := by rw [second.rest, first.rest]

end Disk
end Provenance.World
