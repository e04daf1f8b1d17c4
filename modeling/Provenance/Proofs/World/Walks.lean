import Provenance.Proofs.World.Written

/-!
Contract: the walks along a path, through links.

Owns:
- `Files.Walks`, the walks that lead somewhere, one rule for each kind of segment;
- `Files.walk_eq_ok_iff`: they are those that `Files.walk` finds;
- `Walks.respelled`: a walk to a directory passes over empty segments and `.`;
- `Walks.above`: what leads to a file leads, without its last segment, to a directory;
- `Walks.overwritten`: what leads to a file leads to it when it has been written again.

Does **not** own: the texts of paths, and how long they may be.

## Why walks are a relation

A walk goes on at a link's target, so it is no recursion over its segments, and the function that
walks has a loop for the segments inside a loop for the links.  As a relation it is one induction.
-/

set_option autoImplicit false

namespace Provenance.World.Files

open Failure (FileFault)

/-- A segment that is passed over. -/
abbrev IsIdle (segment : String) : Prop :=
  segment = "" ∨ segment = "."

/-- A segment that names an entry of a directory. -/
structure IsStep (segment : String) : Prop where
  notIdle : ¬ IsIdle segment
  notBack : segment ≠ ".."
  short : ¬ nameLimit < segment.utf8ByteSize

/-- Where a path begins that is taken from a place: a link's target from where the link lies. -/
def baseOf (here : Place) (path : String) : Place :=
  if Path.isAbsolute path then [] else here

/-- The walks that lead somewhere and follow at most so many links. -/
inductive Walks (files : Files) (followLast : Bool) :
    Nat → Place → List String → Target → Prop
  | ends {links : Nat} {here : Place} :
      Walks files followLast links here [] ⟨here, files.entry? here⟩
  | idle {links : Nat} {here : Place} {segment : String} {rest : List String} {target : Target} :
      IsIdle segment → Walks files followLast links here rest target →
      Walks files followLast links here (segment :: rest) target
  | back {links : Nat} {here : Place} {rest : List String} {target : Target} :
      Walks files followLast links here.dropLast rest target →
      Walks files followLast links here (".." :: rest) target
  | absent {links : Nat} {here : Place} {segment : String} {rest : List String} :
      IsStep segment → files.entry? (here ++ [segment]) = none → rest.all String.isEmpty →
      Walks files followLast links here (segment :: rest) ⟨here ++ [segment], none⟩
  | directory {links : Nat} {here : Place} {segment : String} {rest : List String}
      {target : Target} :
      IsStep segment → files.entry? (here ++ [segment]) = some .directory →
      Walks files followLast links (here ++ [segment]) rest target →
      Walks files followLast links here (segment :: rest) target
  | file {links : Nat} {here : Place} {segment : String} {octets : List UInt8}
      {isExecutable : Bool} :
      IsStep segment → files.entry? (here ++ [segment]) = some (.file octets isExecutable) →
      Walks files followLast links here [segment]
        ⟨here ++ [segment], some (.file octets isExecutable)⟩
  | link {links : Nat} {here : Place} {segment linked : String} :
      IsStep segment → files.entry? (here ++ [segment]) = some (.link linked) →
      followLast = false →
      Walks files followLast links here [segment] ⟨here ++ [segment], some (.link linked)⟩
  | linked {links : Nat} {here : Place} {segment linked : String} {rest : List String}
      {target : Target} :
      IsStep segment → files.entry? (here ++ [segment]) = some (.link linked) →
      (rest ≠ [] ∨ followLast = true) → linked ≠ "" →
      Walks files followLast links (baseOf here linked) (Text.splitText '/' linked ++ rest)
        target →
      Walks files followLast (links + 1) here (segment :: rest) target

variable {files : Files} {followLast : Bool} {links : Nat} {here place : Place}
  {segments : List String} {target : Target}

/-! ## The walks that are found -/

theorem walks_of_walkWith {follow : Place → List String → Except FileFault Target}
    (follows : ∀ here segments target, follow here segments = .ok target →
      ∃ fewer, links = fewer + 1 ∧ files.Walks followLast fewer here segments target)
    (walks : files.walkWith followLast follow here segments = .ok target) :
    files.Walks followLast links here segments target := by
  induction segments generalizing here with
  | nil =>
      obtain rfl := Except.ok.inj walks
      exact .ends
  | cons segment rest inductionHypothesis =>
      rw [walkWith] at walks
      split at walks
      · next idle => exact .idle idle (inductionHypothesis walks)
      next notIdle =>
      split at walks
      · next back =>
          subst back
          exact .back (inductionHypothesis walks)
      next notBack =>
      split at walks
      · cases walks
      next short =>
      have isStep : IsStep segment := ⟨notIdle, notBack, short⟩
      dsimp only at walks
      split at walks
      · next absent =>
          split at walks
          · next empty =>
              obtain rfl := Except.ok.inj walks
              exact .absent isStep absent empty
          · cases walks
      · next isDirectory => exact .directory isStep isDirectory (inductionHypothesis walks)
      · next isFile =>
          split at walks
          · next last =>
              obtain rfl := List.isEmpty_iff.mp last
              obtain rfl := Except.ok.inj walks
              exact .file isStep isFile
          · cases walks
      · next linked isLink =>
          split at walks
          · next stops =>
              rw [Bool.and_eq_true, Bool.not_eq_true'] at stops
              obtain rfl := List.isEmpty_iff.mp stops.1
              obtain rfl := Except.ok.inj walks
              exact .link isStep isLink stops.2
          next goesOn =>
          split at walks
          · cases walks
          · next given =>
              obtain ⟨fewer, rfl, onward⟩ := follows _ _ _ walks
              refine .linked isStep isLink ?_ (by simpa using given) onward
              by_cases last : rest = []
              · exact .inr (by simpa [last] using goesOn)
              · exact .inl last

theorem walks_of_walk (walks : files.walk followLast links here segments = .ok target) :
    files.Walks followLast links here segments target := by
  induction links generalizing here segments target with
  | zero => exact walks_of_walkWith (fun _ _ _ follows => by cases follows) walks
  | succ links inductionHypothesis =>
      exact walks_of_walkWith
        (fun _ _ _ follows => ⟨links, rfl, inductionHypothesis follows⟩) walks

/-- A walk is one of the segments, with what becomes of links left open. -/
theorem exists_walk_eq (files : Files) (followLast : Bool) (links : Nat) :
    ∃ follow, files.walk followLast links = files.walkWith followLast follow := by
  cases links with
  | zero => exact ⟨_, rfl⟩
  | succ links => exact ⟨_, rfl⟩

theorem Walks.walk_eq (walks : files.Walks followLast links here segments target) :
    files.walk followLast links here segments = .ok target := by
  induction walks with
  | @ends links here =>
      obtain ⟨follow, walk_eq⟩ := exists_walk_eq files followLast links
      rw [walk_eq]
      rfl
  | @idle links here segment rest target isIdle _ inductionHypothesis =>
      obtain ⟨follow, walk_eq⟩ := exists_walk_eq files followLast links
      rw [walk_eq] at inductionHypothesis ⊢
      rw [walkWith, if_pos isIdle]
      exact inductionHypothesis
  | @back links here rest target _ inductionHypothesis =>
      obtain ⟨follow, walk_eq⟩ := exists_walk_eq files followLast links
      rw [walk_eq] at inductionHypothesis ⊢
      rw [walkWith, if_neg (by decide), if_pos rfl]
      exact inductionHypothesis
  | @absent links here segment rest isStep absent empty =>
      obtain ⟨follow, walk_eq⟩ := exists_walk_eq files followLast links
      rw [walk_eq, walkWith, if_neg isStep.notIdle, if_neg isStep.notBack, if_neg isStep.short]
      simp only [absent, if_pos empty]
  | @directory links here segment rest target isStep there _ inductionHypothesis =>
      obtain ⟨follow, walk_eq⟩ := exists_walk_eq files followLast links
      rw [walk_eq] at inductionHypothesis ⊢
      rw [walkWith, if_neg isStep.notIdle, if_neg isStep.notBack, if_neg isStep.short]
      simp only [there]
      exact inductionHypothesis
  | @file links here segment octets isExecutable isStep there =>
      obtain ⟨follow, walk_eq⟩ := exists_walk_eq files followLast links
      rw [walk_eq, walkWith, if_neg isStep.notIdle, if_neg isStep.notBack, if_neg isStep.short]
      simp only [there]
      rfl
  | @link links here segment linked isStep there stays =>
      obtain ⟨follow, walk_eq⟩ := exists_walk_eq files followLast links
      rw [walk_eq, walkWith, if_neg isStep.notIdle, if_neg isStep.notBack, if_neg isStep.short]
      simp only [there, stays]
      rfl
  | @linked links here segment linked rest target isStep there goesOn given _ inductionHypothesis =>
      have passes : ¬ (rest.isEmpty && !followLast) = true := by
        rcases goesOn with more | follows
        · simp [more]
        · simp [follows]
      rw [walk, walkWith, if_neg isStep.notIdle, if_neg isStep.notBack, if_neg isStep.short]
      simp only [there, if_neg passes]
      rw [if_neg (by simpa using given)]
      exact inductionHypothesis

/-- **The walks that are found are those of the rules.** -/
theorem walk_eq_ok_iff : files.walk followLast links here segments = .ok target ↔
    files.Walks followLast links here segments target :=
  ⟨walks_of_walk, Walks.walk_eq⟩

/-! ## Grounded places -/

/-- A place to which directories lead all the way. -/
def IsGrounded (files : Files) (here : Place) : Prop :=
  ∀ above, above <+: here → files.entry? above = some .directory

theorem isGrounded_root (files : Files) : files.IsGrounded [] := by
  intro above isPrefix
  rw [List.prefix_nil.mp isPrefix]
  rfl

theorem IsGrounded.entry (grounded : files.IsGrounded here) :
    files.entry? here = some .directory :=
  grounded here (List.prefix_refl here)

theorem IsGrounded.walks_nil (grounded : files.IsGrounded here) :
    files.Walks followLast links here [] ⟨here, some .directory⟩ := by
  rw [← grounded.entry]
  exact .ends

theorem IsGrounded.ne_file (grounded : files.IsGrounded here)
    (walks : files.Walks followLast links here [] target) {octets : List UInt8}
    {isExecutable : Bool} : target.entry ≠ some (.file octets isExecutable) := by
  cases walks
  rw [grounded.entry]
  exact fun isFile => by cases isFile

theorem IsGrounded.dropLast (grounded : files.IsGrounded here) :
    files.IsGrounded here.dropLast :=
  fun above isPrefix => grounded above (isPrefix.trans (List.dropLast_prefix here))

theorem IsGrounded.snoc {segment : String} (grounded : files.IsGrounded here)
    (there : files.entry? (here ++ [segment]) = some .directory) :
    files.IsGrounded (here ++ [segment]) := by
  intro above isPrefix
  rcases List.prefix_concat_iff.mp isPrefix with rfl | earlier
  · exact there
  · exact grounded above earlier

theorem IsGrounded.baseOf (grounded : files.IsGrounded here) (path : String) :
    files.IsGrounded (baseOf here path) := by
  unfold Files.baseOf
  split
  · exact isGrounded_root files
  · exact grounded

namespace Walks

/-- A walk ends with what is at the place that it leads to. -/
theorem entry_eq (walks : files.Walks followLast links here segments target) :
    target.entry = files.entry? target.place := by
  induction walks with
  | ends => rfl
  | idle _ _ inductionHypothesis => exact inductionHypothesis
  | back _ inductionHypothesis => exact inductionHypothesis
  | absent _ absent _ => exact absent.symm
  | directory _ _ _ inductionHypothesis => exact inductionHypothesis
  | file _ there => exact there.symm
  | link _ there _ => exact there.symm
  | linked _ _ _ _ _ inductionHypothesis => exact inductionHypothesis

/-! ## Spellings -/

/-- **The last segment of what leads to a file names it, and what stands before leads to a
directory.** -/
theorem above {last : String} {octets : List UInt8} {isExecutable : Bool}
    (grounded : files.IsGrounded here)
    (walks : files.Walks true links here (segments ++ [last]) target)
    (isFile : target.entry = some (.file octets isExecutable)) :
    ¬ IsIdle last ∧ ∃ place, files.Walks true links here segments ⟨place, some .directory⟩ := by
  generalize whole : segments ++ [last] = all at walks
  induction walks generalizing segments with
  | ends => simp at whole
  | idle idle onward inductionHypothesis =>
      cases segments with
      | nil =>
          obtain ⟨rfl, rfl⟩ := List.cons.inj whole
          exact absurd isFile (grounded.ne_file onward)
      | cons first more =>
          obtain ⟨rfl, rfl⟩ := List.cons.inj whole
          obtain ⟨named, place, leads⟩ := inductionHypothesis grounded isFile rfl
          exact ⟨named, place, .idle idle leads⟩
  | back onward inductionHypothesis =>
      cases segments with
      | nil =>
          obtain ⟨rfl, rfl⟩ := List.cons.inj whole
          exact absurd isFile (grounded.dropLast.ne_file onward)
      | cons first more =>
          obtain ⟨rfl, rfl⟩ := List.cons.inj whole
          obtain ⟨named, place, leads⟩ := inductionHypothesis grounded.dropLast isFile rfl
          exact ⟨named, place, .back leads⟩
  | absent _ _ _ => cases isFile
  | directory isStep there onward inductionHypothesis =>
      cases segments with
      | nil =>
          obtain ⟨rfl, rfl⟩ := List.cons.inj whole
          exact absurd isFile ((grounded.snoc there).ne_file onward)
      | cons first more =>
          obtain ⟨rfl, rfl⟩ := List.cons.inj whole
          obtain ⟨named, place, leads⟩ := inductionHypothesis (grounded.snoc there) isFile rfl
          exact ⟨named, place, .directory isStep there leads⟩
  | file isStep there =>
      cases segments with
      | nil =>
          obtain ⟨rfl, -⟩ := List.cons.inj whole
          exact ⟨isStep.notIdle, _, grounded.walks_nil⟩
      | cons first more => simp at whole
  | link _ _ follows => cases follows
  | linked isStep there _ given onward inductionHypothesis =>
      cases segments with
      | nil =>
          obtain ⟨rfl, -⟩ := List.cons.inj whole
          exact ⟨isStep.notIdle, _, grounded.walks_nil⟩
      | cons first more =>
          obtain ⟨rfl, rfl⟩ := List.cons.inj whole
          obtain ⟨named, place, leads⟩ := inductionHypothesis (grounded.baseOf _) isFile
            (List.append_assoc _ _ _)
          exact ⟨named, place, .linked isStep there (.inr rfl) given leads⟩

/-! ## Writing again -/

/-- **What leads to a file leads to it when it has been written again.** -/
theorem overwritten {old new : List UInt8} {isExecutable : Bool}
    (walks : files.Walks true links here segments ⟨place, some (.file old isExecutable)⟩) :
    (files.put place (.file new isExecutable)).Walks true links here segments
      ⟨place, some (.file new isExecutable)⟩ := by
  have there : files.entry? place = some (.file old isExecutable) := walks.entry_eq.symm
  have below : place ≠ [] := by
    rintro rfl
    cases there
  have elsewhere : ∀ {other entry}, files.entry? other = some entry →
      entry ≠ .file old isExecutable →
      Files.entry? (files.put place (.file new isExecutable)) other = some entry := by
    intro other entry found different
    rw [entry?_put_of_ne, found]
    rintro rfl
    exact different (Option.some.inj (found.symm.trans there))
  generalize leadsTo : (⟨place, some (.file old isExecutable)⟩ : Target) = target at walks
  induction walks with
  | @ends links here =>
      obtain ⟨rfl, -⟩ := Target.mk.inj leadsTo
      rw [← entry?_put_self below]
      exact .ends
  | idle idle _ inductionHypothesis => exact .idle idle (inductionHypothesis leadsTo)
  | back _ inductionHypothesis => exact .back (inductionHypothesis leadsTo)
  | absent _ _ _ => cases leadsTo
  | directory isStep found _ inductionHypothesis =>
      exact .directory isStep (elsewhere found (by simp)) (inductionHypothesis leadsTo)
  | file isStep found =>
      obtain ⟨rfl, same⟩ := Target.mk.inj leadsTo
      cases same
      exact .file isStep (entry?_put_self below)
  | link _ _ follows => cases follows
  | linked isStep found goesOn given _ inductionHypothesis =>
      exact .linked isStep (elsewhere found (by simp)) goesOn given (inductionHypothesis leadsTo)

end Walks

end Provenance.World.Files
