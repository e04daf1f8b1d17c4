import Provenance.Proofs.World.Alike
import Provenance.Settings.File

/-!
Contract: settings are loaded alike in worlds that look the same.

Owns:
- `underlying`, the settings that variables are set in, and `load_eq`, loading as setting them;
- `underlying_alike` and `load_alike`, with the laws of the parts of loading that lead to them.

Does **not** own: what is loaded.
-/

set_option autoImplicit false

namespace Provenance.Settings

open Data (Shared)
open Program (Alike)
open World (Even Steady)

variable {Time : Type} {related : World Time → World Time → Prop}

/-! ## The settings under the variables -/

/-- The settings that variables are set in: the defaults, or the file over them. -/
def underlying : Program Time Shared := do
  let path ← locate
  if ← World.Disk.doesExist path then withFile path else pure (.plain defaults)

theorem load_eq : (load : Program Time Shared) = (do
    let settings ← underlying
    let world ← Program.world
    Program.ofFault (override world.environment settings)) := by
  unfold load underlying
  rw [bind_assoc]
  refine congrArg (locate >>= ·) (funext fun path => ?_)
  rw [bind_assoc]
  refine congrArg (World.Disk.doesExist path >>= ·) (funext fun isThere => ?_)
  cases isThere with
  | true => rfl
  | false => rfl

/-! ## Parts of loading -/

section Parts

variable (even : Even related)

include even

theorem doesExist_alike (path : String) :
    Alike related Eq (World.Disk.doesExist path) (World.Disk.doesExist path) := by
  unfold World.Disk.doesExist
  split
  · exact .pure rfl
  · refine .look fun left right kept => ?_
    rw [even.files kept, even.cwd kept]
    exact .ofRefusal _ _

theorem firstExisting?_alike (paths : List String) :
    Alike related Eq (firstExisting? paths) (firstExisting? paths) := by
  induction paths with
  | nil => exact .pure rfl
  | cons path rest inductionHypothesis =>
      refine (doesExist_alike even path).bindSame fun isThere => ?_
      cases isThere with
      | true => exact .pure rfl
      | false => exact inductionHypothesis

theorem readOctets_alike (path : String) :
    Alike related Eq (World.Disk.readOctets path) (World.Disk.readOctets path) := by
  have checks : Alike related Eq (World.Disk.checked path) (World.Disk.checked path) := by
    unfold World.Disk.checked
    split
    · exact .fail (Failure.isListed_fault _)
    · exact .pure rfl
  refine checks.bindSame fun _ => .look fun left right kept => ?_
  rw [even.files kept, even.cwd kept]
  exact .ofRefusal _ _

theorem withFile_alike (path : String) :
    Alike related Eq (withFile path) (withFile path) := by
  have reads : Alike related Eq (readFrom path) (readFrom path) :=
    (readOctets_alike even path).bindSame fun _ => .ofFault _
  refine (reads.bindSame fun settings => Alike.ofFault _).attempt.bind fun left right agree => ?_
  cases agree with
  | ok same =>
      subst same
      exact .pure rfl
  | error listed =>
      dsimp only
      split
      · exact (Alike.log even _ _ _).bindSame fun _ => .pure rfl
      · exact .fail listed

variable (named : ∀ {left right}, related left right →
    left.environment.get? fileVariable = right.environment.get? fileVariable)

include named

theorem namedFile?_alike : Alike related Eq namedFile? namedFile? := by
  refine .look fun left right kept => ?_
  rw [named kept]
  split
  · exact .pure rfl
  · exact firstExisting?_alike even _

variable (home : ∀ {left right}, related left right →
    left.environment.get? "HOME" = right.environment.get? "HOME")

include home

theorem locate_alike : Alike related Eq locate locate := by
  refine (namedFile?_alike even named).bindSame fun found => ?_
  cases found with
  | some path => exact .pure rfl
  | none =>
      refine .look fun left right kept => ?_
      have directory_eq :
          settingsDirectory left.environment = settingsDirectory right.environment := by
        simp only [settingsDirectory, homeDirectory, home kept]
      rw [directory_eq]
      exact (Alike.ofFault _).bindSame fun directory =>
        (firstExisting?_alike even _).bindSame fun _ => .pure rfl

/-- **The settings under the variables are the same wherever the same file is sought and read.** -/
theorem underlying_alike : Alike related Eq underlying underlying := by
  refine (locate_alike even named home).bindSame fun path =>
    (doesExist_alike even path).bindSame fun isThere => ?_
  cases isThere with
  | true => exact withFile_alike even path
  | false => exact .pure rfl

end Parts

/-! ## The settings that hold -/

/-- **Settings are the same wherever the same is seen.**  Neither the version control program nor
what has been said before has a part in them. -/
theorem load_alike (steady : Steady related) : Alike related Eq load load := by
  rw [load_eq]
  refine (underlying_alike steady.toEven (fun kept => by rw [steady.environment kept])
    fun kept => by rw [steady.environment kept]).bindSame fun settings =>
      .look fun left right kept => ?_
  rw [steady.environment kept]
  exact .ofFault _

end Provenance.Settings
