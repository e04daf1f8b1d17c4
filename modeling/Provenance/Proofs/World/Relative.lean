import Provenance.Proofs.World.Location
import Provenance.Proofs.World.Program

/-!
Contract: the path of a directory relative to a base, exactly.

Owns:
- `World.StandsFor`, the places that directories stand for;
- `Location.joined`, one relative path behind another;
- `Location.comesTo_ok_iff`, which paths come of a base and a place;
- `Location.IsExact` and `Location.relativeDirectory_isExact`, the laws of these paths.

Does **not** own: how a directory is resolved, and what the base is taken from.

## Why everything is said of names

A path is compared segment by segment, and a base is read without the slashes at its
end.  So a base is nothing but the names it leads along, and a relative path is nothing
but the names that are left.  Where these are added up or told apart, no text is looked
at any more.
-/

set_option autoImplicit false

namespace Provenance

open World (Place IsProper)
open World.Files (placeText)

variable {Time : Type}

/-- A directory stands for a place, which is made of names. -/
structure World.StandsFor (world : World Time) (directory : String) (place : Place) : Prop where
  resolves : World.resolve world.files world.cwd directory = .ok place
  proper : IsProper place

namespace Location

/-! ## Paths one behind the other -/

/-- The path along a first and then a second relative path; `.` leads nowhere. -/
def joined (first second : String) : String :=
  if first = "." then second else if second = "." then first else first ++ "/" ++ second

theorem ofSegments_append {names others : List String} (proper : IsProper names)
    (properOthers : IsProper others) :
    Path.ofSegments "" (names ++ others) =
      joined (Path.ofSegments "" names) (Path.ofSegments "" others) := by
  unfold joined
  by_cases given : names = []
  · subst given
    rw [List.nil_append, ofSegments_nil, if_pos rfl]
  rw [if_neg (ofSegments_ne_here proper given)]
  by_cases givenOthers : others = []
  · subst givenOthers
    rw [List.append_nil, ofSegments_nil, if_pos rfl]
  rw [if_neg (ofSegments_ne_here properOthers givenOthers), ofSegments_of_ne given,
    ofSegments_of_ne givenOthers, ofSegments_of_ne (List.append_ne_nil_of_left_ne_nil given _),
    intercalate_append given givenOthers]

/-! ## What comes of a base and a place -/

/-- What the path of a directory relative to a base comes to.  Looking for it changes nothing. -/
def ComesTo (world : World Time) (base directory : String) (result : Except Failure String) :
    Prop :=
  (relativeDirectory base directory).runIn world = (result, world)

/-- Whether a base leads to a place: its segments are the first ones of the place. -/
def LeadsTo (base : String) (place : Place) : Prop :=
  Text.splitText '/' (bare base) <+: "" :: place

section Places

variable {world : World Time} {base directory relative : String} {place : Place}

theorem comesTo_iff {result : Except Failure String} :
    ComesTo world base directory result ↔
      relativeTo base directory (World.resolve world.files world.cwd directory) = result := by
  have runs : (relativeDirectory base directory).runIn world =
      (relativeTo base directory (World.resolve world.files world.cwd directory), world) := by
    unfold relativeDirectory
    rw [Program.runIn_bind, Program.runIn_world]
    simp only
    split
    · next found => rw [found, Program.runIn_pure]
    · next fails => rw [fails, Program.runIn_fail]
  rw [ComesTo, runs, Prod.mk.injEq, and_iff_left rfl]

theorem leadsTo_iff (base : String) (place : Place) :
    LeadsTo base place ↔
      ∃ kept names, Text.splitText '/' (bare base) = "" :: kept ∧ place = kept ++ names := by
  constructor
  · rintro ⟨names, same⟩
    cases segments : Text.splitText '/' (bare base) with
    | nil =>
        have none_split := splitText_bare_eq_iff.mp segments
        exact absurd none_split (baseSegments_ne_nil base.toList)
    | cons first kept =>
        rw [segments, List.cons_append] at same
        obtain ⟨rfl, rfl⟩ := List.cons.inj same
        exact ⟨kept, names, rfl, rfl⟩
  · rintro ⟨kept, names, segments, rfl⟩
    exact ⟨names, by rw [segments, List.cons_append]⟩

/-- **What is relative to a base are the names behind it**, and a base that does not start at the
root leads nowhere. -/
theorem comesTo_ok_iff (stands : world.StandsFor directory place) :
    ComesTo world base directory (.ok relative) ↔
      Path.isAbsolute base = true ∧
        ∃ kept names, Text.splitText '/' (bare base) = "" :: kept ∧ place = kept ++ names ∧
          relative = Path.ofSegments "" names := by
  rw [comesTo_iff, stands.resolves, ← below?_eq_some_iff stands.proper, relativeTo]
  cases below? base (placeText place) <;> cases Path.isAbsolute base <;> simp

theorem comesTo_of_unrooted (stands : world.StandsFor directory place)
    (unrooted : Path.isAbsolute base = false) :
    ComesTo world base directory
      (.error (Failure.git .relativePath ("git base path " ++ base ++ " is not absolute"))) := by
  rw [comesTo_iff, stands.resolves, relativeTo, unrooted]
  rfl

/-- A base that starts at the root has a path to every place that it leads to. -/
theorem exists_comesTo_iff (stands : world.StandsFor directory place)
    (rooted : Path.isAbsolute base = true) :
    (∃ relative, ComesTo world base directory (.ok relative)) ↔ LeadsTo base place := by
  simp only [comesTo_ok_iff stands, rooted, true_and, leadsTo_iff]
  constructor
  · rintro ⟨relative, kept, names, segments, place_eq, -⟩
    exact ⟨kept, names, segments, place_eq⟩
  · rintro ⟨kept, names, segments, place_eq⟩
    exact ⟨_, kept, names, segments, place_eq, rfl⟩

theorem comesTo_of_outside (stands : world.StandsFor directory place)
    (rooted : Path.isAbsolute base = true) (outside : ¬ LeadsTo base place) :
    ComesTo world base directory
      (.error (Failure.git .outsideRepository
        (directory ++ " is not within git base path " ++ base))) := by
  have none_found : below? base (placeText place) = none := by
    rw [Option.eq_none_iff_forall_ne_some]
    intro relative below
    obtain ⟨kept, names, segments, place_eq, -⟩ := (below?_eq_some_iff stands.proper).mp below
    exact outside ((leadsTo_iff base place).mpr ⟨kept, names, segments, place_eq⟩)
  rw [comesTo_iff, stands.resolves, relativeTo, rooted]
  simp [none_found]

end Places

/-! ## Exactness -/

/-- What holds of the paths relative to a base, whatever directory is asked about. -/
structure IsExact (world : World Time) (base : String) : Prop where
  /-- A base that does not start at the root is refused. -/
  unrooted : ∀ directory place, world.StandsFor directory place → Path.isAbsolute base = false →
    ComesTo world base directory
      (.error (Failure.git .relativePath ("git base path " ++ base ++ " is not absolute")))
  /-- There is a path just if the segments of the base are the first ones of the place. -/
  found_iff : ∀ directory place, world.StandsFor directory place → Path.isAbsolute base = true →
    ((∃ relative, ComesTo world base directory (.ok relative)) ↔ LeadsTo base place)
  outside : ∀ directory place, world.StandsFor directory place → Path.isAbsolute base = true →
    ¬ LeadsTo base place →
      ComesTo world base directory
        (.error (Failure.git .outsideRepository
          (directory ++ " is not within git base path " ++ base)))
  /-- The root, with however many slashes it is written, leads everywhere. -/
  root : ∀ directory place, world.StandsFor directory place → Path.isAbsolute base = true →
    bare base = "" → ∃ relative, ComesTo world base directory (.ok relative)
  /-- A base that is a place itself leads to the places whose first names are its own: to itself,
  and neither to a place above it nor to one beside it, however alike the names are. -/
  between : ∀ directory place from_, world.StandsFor directory place → IsProper from_ →
    base = placeText from_ →
      ((∃ relative, ComesTo world base directory (.ok relative)) ↔ from_ <+: place)
  /-- Slashes at the end of a base change nothing. -/
  slashes : ∀ directory place relative count, world.StandsFor directory place →
    ComesTo world base directory (.ok relative) →
      ComesTo world (base ++ Text.repeated count '/') directory (.ok relative)
  isRelative : ∀ directory place relative, world.StandsFor directory place →
    ComesTo world base directory (.ok relative) → IsRelative relative
  here_iff : ∀ directory place relative, world.StandsFor directory place →
    ComesTo world base directory (.ok relative) →
      (relative = "." ↔ bare (placeText place) = bare base)
  leads : ∀ directory place relative, world.StandsFor directory place →
    ComesTo world base directory (.ok relative) → relative ≠ "." →
      bare base ++ "/" ++ relative = placeText place
  /-- Different places have different paths. -/
  injective : ∀ directory other place otherPlace relative, world.StandsFor directory place →
    world.StandsFor other otherPlace → ComesTo world base directory (.ok relative) →
      ComesTo world base other (.ok relative) → place = otherPlace
  /-- Directories that stand for the same place have the same path. -/
  samePlace : ∀ directory other place relative, world.StandsFor directory place →
    world.StandsFor other place → ComesTo world base directory (.ok relative) →
      ComesTo world base other (.ok relative)
  /-- The path by way of a place between is the path to it and the one from there on. -/
  composes : ∀ directory middle place between, world.StandsFor directory place →
    world.StandsFor middle between → Path.isAbsolute base = true → LeadsTo base between →
      between <+: place →
        ∃ first second, ComesTo world base middle (.ok first) ∧
          ComesTo world (placeText between) directory (.ok second) ∧
            ComesTo world base directory (.ok (joined first second))

theorem isAbsolute_placeText (place : Place) : Path.isAbsolute (placeText place) = true := by
  rw [Path.isAbsolute, Text.startsWith, toList_placeText]
  rfl

theorem leadsTo_placeText_iff {from_ place : Place} (proper : IsProper from_) :
    LeadsTo (placeText from_) place ↔ from_ <+: place := by
  rw [LeadsTo, segments_placeText proper, List.prefix_cons_inj]

theorem bare_append_slashes (base : String) (count : Nat) :
    bare (base ++ Text.repeated count '/') = bare base := by
  rw [bare, bare, Text.repeated, String.toList_append, String.toList_ofList,
    Text.dropTrailing_append_replicate]

theorem isAbsolute_append {base : String} (rooted : Path.isAbsolute base = true) (rest : String) :
    Path.isAbsolute (base ++ rest) = true := by
  rw [Path.isAbsolute, Text.startsWith, List.isPrefixOf_iff_prefix] at rooted ⊢
  rw [String.toList_append]
  exact rooted.trans (List.prefix_append _ _)

/-- **The path of a directory relative to a base is exact.**  It is there just if the base leads to
the place that the directory stands for, it leads from the base to this place and to no other, and
paths one behind the other add up. -/
theorem relativeDirectory_isExact (world : World Time) (base : String) : IsExact world base where
  unrooted := fun _ _ stands unrooted => comesTo_of_unrooted stands unrooted
  found_iff := fun _ _ stands rooted => exists_comesTo_iff stands rooted
  outside := fun _ _ stands rooted outside => comesTo_of_outside stands rooted outside
  root := by
    intro directory place stands rooted bare_eq
    rw [exists_comesTo_iff stands rooted, LeadsTo, bare_eq]
    exact List.prefix_append [""] place
  between := by
    rintro directory place from_ stands proper rfl
    rw [exists_comesTo_iff stands (isAbsolute_placeText from_), leadsTo_placeText_iff proper]
  slashes := by
    intro directory place relative count stands comes
    obtain ⟨rooted, names⟩ := (comesTo_ok_iff stands).mp comes
    rw [comesTo_ok_iff stands, bare_append_slashes]
    exact ⟨isAbsolute_append rooted _, names⟩
  isRelative := by
    intro directory place relative stands comes
    obtain ⟨-, kept, names, -, rfl, relative_eq⟩ := (comesTo_ok_iff stands).mp comes
    exact ⟨names, (World.isProper_append_iff.mp stands.proper).2, relative_eq⟩
  here_iff := by
    intro directory place relative stands comes
    obtain ⟨-, kept, names, segments, rfl, rfl⟩ := (comesTo_ok_iff stands).mp comes
    have proper := (World.isProper_append_iff.mp stands.proper).2
    constructor
    · intro here
      obtain rfl : names = [] := by
        by_contra given
        exact ofSegments_ne_here proper given here
      rw [List.append_nil]
      exact (bare_eq_of_segments segments).symm
    · intro same
      have whole := segments_placeText stands.proper
      rw [same, segments] at whole
      obtain rfl : names = [] := List.self_eq_append_right.mp (List.cons.inj whole).2
      rfl
  leads := by
    intro directory place relative stands comes notHere
    obtain ⟨-, kept, names, segments, rfl, rfl⟩ := (comesTo_ok_iff stands).mp comes
    have given : names ≠ [] := by
      rintro rfl
      exact notHere rfl
    rw [← String.toList_inj, placeText_eq_of_append segments given, ofSegments_of_ne given]
    simp [bare]
  injective := by
    intro directory other place otherPlace relative stands standsToo comes comesToo
    obtain ⟨-, kept, names, segments, rfl, rfl⟩ := (comesTo_ok_iff stands).mp comes
    obtain ⟨-, keptToo, namesToo, segmentsToo, rfl, same⟩ := (comesTo_ok_iff standsToo).mp comesToo
    obtain rfl : kept = keptToo := (List.cons.inj (segments.symm.trans segmentsToo)).2
    rw [ofSegments_injective (World.isProper_append_iff.mp stands.proper).2
      (World.isProper_append_iff.mp standsToo.proper).2 same]
  samePlace := fun _ _ _ _ stands standsToo comes =>
    (comesTo_ok_iff standsToo).mpr ((comesTo_ok_iff stands).mp comes)
  composes := by
    rintro directory middle place between stands standsToo rooted leads ⟨others, rfl⟩
    obtain ⟨kept, names, segments, rfl⟩ := (leadsTo_iff base between).mp leads
    obtain ⟨-, proper⟩ := World.isProper_append_iff.mp standsToo.proper
    obtain ⟨-, properOthers⟩ := World.isProper_append_iff.mp stands.proper
    refine ⟨Path.ofSegments "" names, Path.ofSegments "" others, ?_, ?_, ?_⟩
    · exact (comesTo_ok_iff standsToo).mpr ⟨rooted, kept, names, segments, rfl, rfl⟩
    · exact (comesTo_ok_iff stands).mpr ⟨isAbsolute_placeText _, kept ++ names, others,
        segments_placeText standsToo.proper, rfl, rfl⟩
    · exact (comesTo_ok_iff stands).mpr ⟨rooted, kept, names ++ others, segments,
        List.append_assoc kept names others, (ofSegments_append proper properOthers).symm⟩

/-- A world with a directory in `/repo`, to which a link leads. -/
def linkedWorld : World Rat where
  files := ⟨[(["repo"], .directory), (["repo", "src"], .directory), (["code"], .link "repo/src")]⟩
  cwd := []
  environment := []
  script := { otherwise := { takes := 0 } }
  clock := 0

/-- The law at work: a link into a directory whose path is written with slashes at its end. -/
theorem relativeDirectory_isExact_linked :
    linkedWorld.StandsFor "code" ["repo", "src"] ∧
      ∃ relative, ComesTo linkedWorld "/repo//" "code" (.ok relative) ∧ relative ≠ "." ∧
        "/repo/" ++ relative = "/repo/src" := by
  have stands : linkedWorld.StandsFor "code" ["repo", "src"] := by
    refine ⟨by decide +kernel, fun name member => ?_⟩
    rcases List.mem_pair.mp member with rfl | rfl
    · exact ⟨by decide, by decide, by decide, by decide⟩
    · exact ⟨by decide, by decide, by decide, by decide⟩
  have exact_ := relativeDirectory_isExact linkedWorld "/repo//"
  have leads : LeadsTo "/repo//" ["repo", "src"] := by
    unfold LeadsTo
    decide
  obtain ⟨relative, comes⟩ := (exact_.found_iff "code" _ stands (by decide)).mpr leads
  have below : relative ≠ "." := fun here =>
    absurd ((exact_.here_iff "code" _ relative stands comes).mp here) (by decide)
  exact ⟨stands, relative, comes, below, exact_.leads "code" _ relative stands comes below⟩

end Location
end Provenance
