import Provenance.Location
import Provenance.Proofs.World.Names

/-!
Contract: where a directory lies below the root of its repository.

Owns:
- `Location.IsRelative`, the relative paths: names with slashes between them, or `.`;
- `Location.below?_eq_some_iff`, which of them leads from a base to a place;
- `Location.IsBelow`, a place that is a base itself, or that is reached from it along names;
- `Location.isBelow_of_relativeTo`, the law that relative paths say so.

Does **not** own: what the base is, and that the directory is there.

## Why trailing slashes matter

A base may be written with slashes at its end, and the root is nothing but such
slashes.  So a base is compared without them, and the root then has one empty
segment, as any path has before its first slash.
-/

set_option autoImplicit false

namespace Provenance.Location

open Failure (Fault)
open Text (split joinWith dropTrailing)
open World (Place IsName IsProper)
open World.Files (placeText)

/-! ## Places as texts -/

theorem toList_intercalate_slash (segments : List String) :
    ("/".intercalate segments).toList = joinWith '/' (segments.map String.toList) :=
  Text.toList_intercalate rfl segments

theorem toList_placeText (place : Place) :
    (placeText place).toList = '/' :: joinWith '/' (place.map String.toList) := by
  have joined := toList_intercalate_slash place
  unfold placeText
  rw [String.toList_append, joined]
  rfl

theorem intercalate_append {segments others : List String} (given : segments ≠ [])
    (givenOthers : others ≠ []) :
    "/".intercalate (segments ++ others) =
      "/".intercalate segments ++ "/" ++ "/".intercalate others := by
  rw [← String.toList_inj]
  simp only [String.toList_append, toList_intercalate_slash, List.map_append]
  rw [Text.joinWith_append (by simpa using given) (by simpa using givenOthers)]
  simp

/-- Names with slashes between them are told apart again. -/
theorem split_intercalate {segments : List String} (proper : IsProper segments)
    (given : segments ≠ []) :
    split '/' ("/".intercalate segments).toList = segments.map String.toList := by
  have whole : ∀ piece ∈ segments.map String.toList, '/' ∉ piece := by
    intro piece member
    obtain ⟨segment, isThere, rfl⟩ := List.mem_map.mp member
    exact (proper segment isThere).whole
  rw [toList_intercalate_slash]
  exact Text.split_joinWith (by simpa using given) whole

theorem split_placeText {place : Place} (proper : IsProper place) (given : place ≠ []) :
    split '/' (placeText place).toList = [] :: place.map String.toList := by
  rw [toList_placeText, ← toList_intercalate_slash, split, if_pos rfl,
    split_intercalate proper given]

/-- Names with slashes between them are not a single segment that is none. -/
theorem intercalate_ne {segments : List String} (proper : IsProper segments)
    (given : segments ≠ []) {other : String} (whole : '/' ∉ other.toList)
    (noName : ¬ IsName other) : "/".intercalate segments ≠ other := by
  intro same
  have pieces := split_intercalate proper given
  rw [same, Text.split_of_not_mem whole] at pieces
  cases segments with
  | nil => exact given rfl
  | cons segment rest =>
      have isOther : other = segment := String.toList_inj.mp (List.cons.inj pieces).1
      rw [isOther] at noName
      exact noName (proper segment List.mem_cons_self)

/-! ## Below a base -/

/-- A place is a base itself, but for slashes at the end, or it is reached from the base along the
names of a relative path. -/
def IsBelow (base : String) (place : Place) (relative : String) : Prop :=
  (relative = "." ∧
      dropTrailing '/' (placeText place).toList = dropTrailing '/' base.toList) ∨
    ∃ segments : List String, segments ≠ [] ∧ IsProper segments ∧
      relative = "/".intercalate segments ∧ relative ≠ "." ∧
        (placeText place).toList = dropTrailing '/' base.toList ++ '/' :: relative.toList

/-- A path without the slashes at its end. -/
def bare (path : String) : String :=
  String.ofList (dropTrailing '/' path.toList)

/-- A path below a base: the names on the way with slashes between them, or `.` for none. -/
def IsRelative (relative : String) : Prop :=
  ∃ names : List String, IsProper names ∧ relative = Path.ofSegments "" names

theorem ofSegments_nil : Path.ofSegments "" [] = "." := rfl

theorem ofSegments_of_names (root : String) {names : List String} (given : names ≠ []) :
    Path.ofSegments root names = root ++ "/".intercalate names := by
  have full : names.isEmpty = false := List.isEmpty_eq_false_iff.mpr given
  rw [Path.ofSegments, full, Bool.and_false, if_neg Bool.false_ne_true]

theorem ofSegments_of_ne {names : List String} (given : names ≠ []) :
    Path.ofSegments "" names = "/".intercalate names := by
  rw [ofSegments_of_names "" given, String.empty_append]

theorem ofSegments_ne_here {names : List String} (proper : IsProper names) (given : names ≠ []) :
    Path.ofSegments "" names ≠ "." := by
  rw [ofSegments_of_ne given]
  exact intercalate_ne proper given (by decide) fun name => name.notHere rfl

theorem IsRelative.given {relative : String} (isRelative : IsRelative relative) :
    relative ≠ "" := by
  obtain ⟨names, proper, rfl⟩ := isRelative
  by_cases none_left : names = []
  · subst none_left
    decide
  · rw [ofSegments_of_ne none_left]
    exact intercalate_ne proper none_left (by decide) fun name => name.given rfl

/-- Different names make different relative paths. -/
theorem ofSegments_injective {names others : List String} (proper : IsProper names)
    (properOthers : IsProper others)
    (same : Path.ofSegments "" names = Path.ofSegments "" others) : names = others := by
  by_cases given : names = []
  · by_cases givenOthers : others = []
    · rw [given, givenOthers]
    · rw [given] at same
      exact absurd same.symm (ofSegments_ne_here properOthers givenOthers)
  · by_cases givenOthers : others = []
    · rw [givenOthers] at same
      exact absurd same (ofSegments_ne_here proper given)
    · have pieces := split_intercalate proper given
      rw [← ofSegments_of_ne given, same, ofSegments_of_ne givenOthers,
        split_intercalate properOthers givenOthers] at pieces
      exact (List.map_inj_right fun _ _ => String.toList_inj.mp).mp pieces.symm

theorem dropBase?_eq_some_iff {base path rest : List (List Char)} :
    dropBase? base path = some rest ↔ path = base ++ rest := by
  induction base generalizing path with
  | nil => exact Option.some_inj
  | cons first others inductionHypothesis =>
      cases path with
      | nil => exact iff_of_false (by simp [dropBase?]) (by simp)
      | cons segment segments =>
          rw [dropBase?, List.cons_append, List.cons.injEq]
          by_cases same : first = segment
          · rw [if_pos same, inductionHypothesis, eq_comm (a := segment), and_iff_right same]
          · rw [if_neg same]
            exact iff_of_false (by simp) fun both => same both.1.symm

/-- The segments of a base are those of its text without the slashes at its end. -/
theorem splitText_bare_eq_iff {base : String} {segments : List String} :
    Text.splitText '/' (bare base) = segments ↔
      baseSegments base.toList = segments.map String.toList := by
  rw [Text.splitText_eq_iff, bare, String.toList_ofList]
  rfl

theorem baseSegments_ne_nil (base : List Char) : baseSegments base ≠ [] :=
  Text.split_ne_nil _ _

/-- No base has only the two empty segments of the root: the slashes at its end are dropped. -/
theorem baseSegments_ne_root (base : List Char) : baseSegments base ≠ [[], []] := by
  intro same
  have root : dropTrailing '/' base = ['/'] := by
    rw [← Text.joinWith_split '/' (dropTrailing '/' base)]
    exact congrArg (joinWith '/') same
  have twice := Text.dropTrailing_dropTrailing '/' base
  rw [root] at twice
  cases twice

/-- The segments that are left of a place are written as a relative path. -/
theorem relative_eq_ofSegments {names : List String} (proper : IsProper names) :
    (match joinWith '/' (names.map String.toList) with
      | [] => "."
      | relative => String.ofList relative) = Path.ofSegments "" names := by
  by_cases given : names = []
  · subst given
    rfl
  have notEmpty : "/".intercalate names ≠ "" :=
    intercalate_ne proper given (by simp) fun name => name.given rfl
  rw [ofSegments_of_ne given, ← toList_intercalate_slash]
  split
  · next empty => exact absurd (String.toList_eq_nil_iff.mp empty) notEmpty
  · rw [String.ofList_toList]

/-- **What is relative to a base are the names behind it.**  A base leads to a place just if its own
names are the first ones of the place, and the names that are left are the relative path. -/
theorem below?_eq_some_iff {base relative : String} {place : Place} (proper : IsProper place) :
    below? base (placeText place) = some relative ↔
      ∃ kept names, Text.splitText '/' (bare base) = "" :: kept ∧ place = kept ++ names ∧
        relative = Path.ofSegments "" names := by
  simp only [below?, Option.map_eq_some_iff, dropBase?_eq_some_iff, splitText_bare_eq_iff,
    List.map_cons, String.toList_empty]
  obtain ⟨first, others, base_eq⟩ := List.exists_cons_of_ne_nil (baseSegments_ne_nil base.toList)
  rw [base_eq]
  by_cases atRoot : place = []
  · -- The root has two empty segments, of which every base that leads there has the first.
    subst atRoot
    have root : split '/' (placeText []).toList = [[], []] := rfl
    rw [root]
    constructor
    · rintro ⟨rest, segments_eq, rfl⟩
      obtain ⟨rfl, left⟩ := List.cons.inj segments_eq
      cases others with
      | nil =>
          obtain rfl := left
          exact ⟨[], [], rfl, rfl, rfl⟩
      | cons second more =>
          obtain ⟨rfl, none_left⟩ := List.cons.inj left
          obtain ⟨rfl, -⟩ := List.append_eq_nil_iff.mp none_left.symm
          exact absurd base_eq (baseSegments_ne_root base.toList)
    · rintro ⟨kept, names, same, none_kept, rfl⟩
      obtain ⟨rfl, rfl⟩ := List.append_eq_nil_iff.mp none_kept.symm
      obtain ⟨rfl, rfl⟩ := List.cons.inj same
      exact ⟨[[]], rfl, rfl⟩
  · rw [split_placeText proper atRoot]
    constructor
    · rintro ⟨rest, segments_eq, rfl⟩
      obtain ⟨rfl, left⟩ := List.cons.inj segments_eq
      obtain ⟨kept, names, rfl, rfl, rfl⟩ := List.map_eq_append_iff.mp left
      exact ⟨kept, names, rfl, rfl, relative_eq_ofSegments (World.isProper_append_iff.mp proper).2⟩
    · rintro ⟨kept, names, same, rfl, rfl⟩
      refine ⟨names.map String.toList, ?_,
        relative_eq_ofSegments (World.isProper_append_iff.mp proper).2⟩
      rw [same, List.map_append]
      rfl

/-- Behind the root every name of a place has a slash before it. -/
theorem toList_placeText_of_ne {place : Place} (given : place ≠ []) :
    (placeText place).toList = joinWith '/' ([] :: place.map String.toList) := by
  rw [toList_placeText, Text.joinWith_cons (by simpa using given), List.nil_append]

theorem joinWith_baseSegments {base : String} {kept : List String}
    (base_eq : Text.splitText '/' (bare base) = "" :: kept) :
    joinWith '/' ([] :: kept.map String.toList) = dropTrailing '/' base.toList := by
  have segments_eq := splitText_bare_eq_iff.mp base_eq
  rw [List.map_cons, String.toList_empty] at segments_eq
  rw [← segments_eq]
  exact Text.joinWith_split _ _

/-- The text of a place is that of its first names, and behind it the others. -/
theorem placeText_eq_of_append {base : String} {kept names : List String}
    (base_eq : Text.splitText '/' (bare base) = "" :: kept) (given : names ≠ []) :
    (placeText (kept ++ names)).toList =
      dropTrailing '/' base.toList ++ '/' :: ("/".intercalate names).toList := by
  have left : names.map String.toList ≠ [] := by simpa using given
  rw [toList_placeText_of_ne (List.append_ne_nil_of_right_ne_nil kept given), List.map_append,
    ← List.cons_append, Text.joinWith_append (List.cons_ne_nil _ _) left,
    joinWith_baseSegments base_eq, toList_intercalate_slash]

/-- A base that has the names of a place is the text of this place, but for slashes at the end. -/
theorem bare_eq_of_segments {base : String} {place : Place}
    (base_eq : Text.splitText '/' (bare base) = "" :: place) :
    bare base = bare (placeText place) := by
  have base_text := joinWith_baseSegments base_eq
  unfold bare
  by_cases atRoot : place = []
  · subst atRoot
    rw [← base_text]
    rfl
  · rw [toList_placeText_of_ne atRoot, base_text, Text.dropTrailing_dropTrailing]

/-- The text of a place has the names of the place. -/
theorem segments_placeText {place : Place} (proper : IsProper place) :
    Text.splitText '/' (bare (placeText place)) = "" :: place := by
  rw [splitText_bare_eq_iff, baseSegments]
  rcases List.eq_nil_or_concat place with rfl | ⟨front, name, rfl⟩
  · rfl
  have isName := proper name (by simp)
  have given : name.toList ≠ [] := fun empty => isName.given (String.toList_eq_nil_iff.mp empty)
  have text_eq : (placeText (front.concat name)).toList =
      (joinWith '/' ([] :: front.map String.toList) ++ ['/']) ++ name.toList := by
    rw [toList_placeText_of_ne (by simp), List.concat_eq_append, List.map_append,
      ← List.cons_append, List.map_singleton,
      Text.joinWith_append (List.cons_ne_nil _ _) (List.cons_ne_nil _ _), List.append_assoc]
    rfl
  have whole := text_eq.symm ▸ Text.dropTrailing_append given isName.whole
  rw [whole, split_placeText proper (by simp)]
  rfl

/-- **A relative path leads from the base to the place.** -/
theorem isBelow_of_below? {base relative : String} {place : Place} (proper : IsProper place)
    (below : below? base (placeText place) = some relative) : IsBelow base place relative := by
  obtain ⟨kept, names, base_eq, rfl, rfl⟩ := (below?_eq_some_iff proper).mp below
  have properNames : IsProper names := (World.isProper_append_iff.mp proper).2
  by_cases given : names = []
  · subst given
    rw [List.append_nil]
    have same := congrArg String.toList (bare_eq_of_segments base_eq)
    rw [bare, bare, String.toList_ofList, String.toList_ofList] at same
    exact .inl ⟨rfl, same.symm⟩
  · refine .inr ⟨names, given, properNames, ofSegments_of_ne given,
      ofSegments_ne_here properNames given, ?_⟩
    rw [ofSegments_of_ne given, placeText_eq_of_append base_eq given]

/-- What is relative to a base is what is left of the place below the base. -/
theorem exists_below_of_relativeTo {base directory relative : String}
    {resolved : Except Fault Place} (places : relativeTo base directory resolved = .ok relative) :
    ∃ place, resolved = .ok place ∧ below? base (placeText place) = some relative := by
  unfold relativeTo at places
  cases resolved with
  | error fault => cases places
  | ok place =>
      refine ⟨place, rfl, ?_⟩
      simp only at places
      split at places
      · split at places
        · next found below =>
            obtain rfl := Except.ok.inj places
            exact below
        · cases places
      · cases places

/-- **What is relative to a base lies below it.** -/
theorem isBelow_of_relativeTo {base directory relative : String}
    {resolved : Except Fault Place} (proper : ∀ place, resolved = .ok place → IsProper place)
    (places : relativeTo base directory resolved = .ok relative) :
    ∃ place, resolved = .ok place ∧ IsBelow base place relative := by
  obtain ⟨place, resolves, below⟩ := exists_below_of_relativeTo places
  exact ⟨place, resolves, isBelow_of_below? (proper place resolves) below⟩

/-- A relative path is never empty: the base itself has a name of its own. -/
theorem relativeTo_ne_empty {base directory relative : String} {resolved : Except Fault Place}
    (places : relativeTo base directory resolved = .ok relative) : relative ≠ "" := by
  obtain ⟨place, -, below⟩ := exists_below_of_relativeTo places
  obtain ⟨segments, -, rfl⟩ := Option.map_eq_some_iff.mp below
  split
  · decide
  · next given => exact fun empty => given (String.ofList_eq_empty_iff.mp empty)

end Provenance.Location
