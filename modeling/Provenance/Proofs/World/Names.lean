import Provenance.Proofs.Text.Cut
import Provenance.World.Resolve
import Provenance.World.Snapshot

/-!
Contract: places are made of names.

Owns:
- `World.IsName`, the segments of a path that name something, and `World.IsProper`, the places
  that are made of them;
- `World.isProper_of_find` and `World.isProper_of_resolve`: paths lead to proper places, and stand
  for them;
- `World.isProper_extend`: every world that is described works in a proper place.

Does **not** own: what is at a place.
-/

set_option autoImplicit false

namespace Provenance.World

open Failure (Fault FileFault)

/-- A segment that names something in a directory. -/
structure IsName (segment : String) : Prop where
  given : segment ≠ ""
  notHere : segment ≠ "."
  notParent : segment ≠ ".."
  whole : '/' ∉ segment.toList

def IsProper (place : Place) : Prop :=
  ∀ segment ∈ place, IsName segment

/-- Segments as they stand between the slashes of a path. -/
def AreSegments (segments : List String) : Prop :=
  ∀ segment ∈ segments, '/' ∉ segment.toList

theorem isProper_nil : IsProper [] :=
  fun _ member => nomatch member

theorem isProper_append_iff {place names : Place} :
    IsProper (place ++ names) ↔ IsProper place ∧ IsProper names :=
  List.forall_mem_append

theorem areSegments_splitText (path : String) : AreSegments (Text.splitText '/' path) := by
  intro segment member
  obtain ⟨piece, isPiece, rfl⟩ := List.mem_map.mp member
  rw [String.toList_ofList]
  exact Text.not_mem_of_mem_split isPiece

theorem IsProper.dropLast {place : Place} (proper : IsProper place) : IsProper place.dropLast :=
  fun segment member => proper segment (List.dropLast_subset _ member)

theorem IsProper.snoc {place : Place} {segment : String} (proper : IsProper place)
    (name : IsName segment) : IsProper (place ++ [segment]) := by
  intro other member
  rcases List.mem_append.mp member with earlier | last
  · exact proper other earlier
  · rw [List.mem_singleton.mp last]
    exact name

/-! ## Walking -/

section Walking

variable {files : Files} {followLast : Bool}

theorem isProper_of_walkWith {follow : Place → List String → Except FileFault Files.Target}
    (follows : ∀ here segments target, IsProper here → AreSegments segments →
      follow here segments = .ok target → IsProper target.place)
    {segments : List String} {here : Place} {target : Files.Target} (proper : IsProper here)
    (whole : AreSegments segments)
    (walks : files.walkWith followLast follow here segments = .ok target) :
    IsProper target.place := by
  induction segments generalizing here with
  | nil =>
      obtain rfl := Except.ok.inj walks
      exact proper
  | cons segment rest inductionHypothesis =>
      have wholeRest : AreSegments rest := fun other member =>
        whole other (List.mem_cons_of_mem _ member)
      rw [Files.walkWith] at walks
      by_cases idle : segment = "" ∨ segment = "."
      · rw [if_pos idle] at walks
        exact inductionHypothesis proper wholeRest walks
      rw [if_neg idle] at walks
      by_cases back : segment = ".."
      · rw [if_pos back] at walks
        exact inductionHypothesis proper.dropLast wholeRest walks
      rw [if_neg back] at walks
      rw [not_or] at idle
      have name : IsName segment := ⟨idle.1, idle.2, back, whole segment List.mem_cons_self⟩
      have properNext := proper.snoc name
      by_cases tooLong : Files.nameLimit < segment.utf8ByteSize
      · rw [if_pos tooLong] at walks
        cases walks
      rw [if_neg tooLong] at walks
      cases entry : files.entry? (here ++ [segment]) with
      | none =>
          simp only [entry] at walks
          split at walks
          · obtain rfl := Except.ok.inj walks
            exact properNext
          · cases walks
      | some found =>
          cases found with
          | directory =>
              simp only [entry] at walks
              exact inductionHypothesis properNext wholeRest walks
          | file octets isExecutable =>
              simp only [entry] at walks
              split at walks
              · obtain rfl := Except.ok.inj walks
                exact properNext
              · cases walks
          | link linked =>
              simp only [entry] at walks
              split at walks
              · obtain rfl := Except.ok.inj walks
                exact properNext
              split at walks
              · cases walks
              -- A link is followed along its own segments and those that are left.
              refine follows _ _ _ ?_ ?_ walks
              · split
                · exact isProper_nil
                · exact proper
              · intro other member
                rcases List.mem_append.mp member with isLinked | isLeft
                · exact areSegments_splitText linked other isLinked
                · exact wholeRest other isLeft

theorem isProper_of_walk {links : Nat} {here : Place} {segments : List String}
    {target : Files.Target} (proper : IsProper here) (whole : AreSegments segments)
    (walks : files.walk followLast links here segments = .ok target) : IsProper target.place := by
  induction links generalizing here segments target with
  | zero =>
      exact isProper_of_walkWith (fun _ _ _ _ _ fails => by cases fails) proper whole walks
  | succ links inductionHypothesis =>
      exact isProper_of_walkWith (fun _ _ _ => inductionHypothesis) proper whole walks

/-- **A path leads to a proper place**, seen from a proper place. -/
theorem isProper_of_find {cwd place : Place} {path : String} {entry : Entry}
    (proper : IsProper cwd) (finds : files.find cwd path = .ok (place, entry)) :
    IsProper place := by
  unfold Files.find at finds
  cases located : files.locate cwd true path with
  | error fault =>
      rw [located] at finds
      cases finds
  | ok target =>
      have properTarget : IsProper target.place := by
        unfold Files.locate at located
        split at located
        · cases located
        split at located
        · cases located
        refine isProper_of_walk ?_ (areSegments_splitText path) located
        split
        · exact isProper_nil
        · exact proper
      rw [located] at finds
      simp only [bind, Except.bind] at finds
      cases there : target.entry with
      | none =>
          rw [there] at finds
          cases finds
      | some found =>
          rw [there] at finds
          obtain ⟨rfl, rfl⟩ := Prod.mk.inj (Except.ok.inj finds)
          exact properTarget

end Walking

/-- **Every world that is described works in a proper place.** -/
theorem isProper_extend {world : World Data.Value} (proper : IsProper world.cwd)
    (document : Data.Value) : IsProper (Snapshot.extend world document).cwd := by
  change IsProper (Snapshot.enter _ world.cwd _).2
  unfold Snapshot.enter
  simp only
  split
  · next finds => exact isProper_of_find proper finds
  · exact proper

/-! ## Resolving -/

namespace Resolved

/-- A path whose segments are names, but for steps back above the current directory. -/
def IsProper (path : Resolved) : Prop :=
  ∀ segment ∈ path.segments, IsName segment ∨ (segment = ".." ∧ path.isAbsolute = false)

variable {path : Resolved}

theorem isProper_root : root.IsProper :=
  fun _ member => nomatch member

theorem isProper_here : here.IsProper :=
  fun _ member => nomatch member

theorem IsProper.child (proper : path.IsProper) {segment : String} (name : IsName segment) :
    (path.child segment).IsProper := by
  intro other member
  rcases List.mem_append.mp member with earlier | last
  · exact proper other earlier
  · rw [List.mem_singleton.mp last]
    exact .inl name

theorem isProper_back (proper : path.IsProper) (relative : path.isAbsolute = false) :
    (path.child "..").IsProper := by
  intro other member
  rcases List.mem_append.mp member with earlier | last
  · exact proper other earlier
  · exact .inr ⟨List.mem_singleton.mp last, relative⟩

theorem IsProper.parent (proper : path.IsProper) : path.parent.IsProper := by
  unfold Resolved.parent
  split
  · split
    · exact proper
    · next relative => exact isProper_back proper (by simpa using relative)
  · next last =>
      have isBack := proper ".." (List.mem_of_getLast? last)
      refine isProper_back proper (isBack.elim (fun name => absurd rfl name.notParent) And.right)
  · intro other member
    exact proper other (List.dropLast_subset _ member)

/-- **A proper path stands for a proper place**, seen from a proper place. -/
theorem IsProper.place (proper : path.IsProper) {cwd : Place} (properHere : World.IsProper cwd) :
    World.IsProper (path.place cwd) := by
  unfold Resolved.place
  split
  · next absolute =>
      intro segment member
      refine (proper segment member).resolve_right fun isBack => ?_
      rw [isBack.2] at absolute
      cases absolute
  · have steps : ∀ (segments : List String) (place : Place),
        (∀ segment ∈ segments, IsName segment ∨ segment = "..") → World.IsProper place →
          World.IsProper (segments.foldl
            (fun place segment => if segment = ".." then place.dropLast else place ++ [segment])
            place) := by
      intro segments
      induction segments with
      | nil => exact fun place _ properPlace => properPlace
      | cons segment rest inductionHypothesis =>
          intro place names properPlace
          refine inductionHypothesis _ (fun other member =>
            names other (List.mem_cons_of_mem _ member)) ?_
          beta_reduce
          split
          · exact properPlace.dropLast
          · next ahead =>
              exact properPlace.snoc ((names segment List.mem_cons_self).resolve_right ahead)
    exact steps path.segments cwd (fun segment member =>
      (proper segment member).imp_right And.left) properHere

end Resolved

/-- Links that stand for proper paths. -/
def Links.IsProper (links : Links) : Prop :=
  ∀ link known, (link, some known) ∈ links → known.IsProper

theorem Links.IsProper.note {links : Links} (proper : links.IsProper) (link : Resolved)
    {outcome : Option Resolved} (known : ∀ path, outcome = some path → path.IsProper) :
    (links.note link outcome).IsProper := by
  intro other path member
  rcases List.mem_cons.mp member with same | earlier
  · exact known path (Prod.mk.inj same).2.symm
  · exact proper other path earlier

section Resolving

variable {files : Files} {cwd : Place}

theorem isProper_of_resolveWith
    {follow : Links → Resolved → String → Except Fault (Resolved × Links)}
    (follows : ∀ links path target known later, links.IsProper → path.IsProper →
      follow links path target = .ok (known, later) → known.IsProper ∧ later.IsProper)
    {segments : List String} {links later : Links} {path found : Resolved}
    (properLinks : links.IsProper) (proper : path.IsProper) (whole : AreSegments segments)
    (resolves : resolveWith files cwd follow links path segments = .ok (found, later)) :
    found.IsProper ∧ later.IsProper := by
  induction segments generalizing links path with
  | nil =>
      obtain ⟨rfl, rfl⟩ := Prod.mk.inj (Except.ok.inj resolves)
      exact ⟨proper, properLinks⟩
  | cons segment rest inductionHypothesis =>
      have wholeRest : AreSegments rest := fun other member =>
        whole other (List.mem_cons_of_mem _ member)
      rw [resolveWith] at resolves
      by_cases idle : segment = "" ∨ segment = "."
      · rw [if_pos idle] at resolves
        exact inductionHypothesis properLinks proper wholeRest resolves
      rw [if_neg idle] at resolves
      by_cases back : segment = ".."
      · rw [if_pos back] at resolves
        exact inductionHypothesis properLinks proper.parent wholeRest resolves
      rw [if_neg back] at resolves
      rw [not_or] at idle
      have name : IsName segment := ⟨idle.1, idle.2, back, whole segment List.mem_cons_self⟩
      have properNext := proper.child name
      split at resolves
      · cases resolves
      dsimp only at resolves
      split at resolves
      · cases resolves
      · cases resolves
      · cases resolves
      · split at resolves
        · next known isKnown =>
            obtain ⟨before, others, links_eq, -⟩ := List.lookup_eq_some_iff.mp isKnown
            have properKnown : known.IsProper := by
              refine properLinks (path.child segment) known ?_
              rw [links_eq]
              simp
            exact inductionHypothesis properLinks properKnown wholeRest resolves
        · cases resolves
        · split at resolves
          · cases resolves
          · next known met followed =>
              have properOpen : Links.IsProper (links.note (path.child segment) none) :=
                properLinks.note _ fun _ same => nomatch same
              obtain ⟨properKnown, properMet⟩ := follows _ _ _ _ _ properOpen proper followed
              exact inductionHypothesis
                (properMet.note _ fun _ same => Option.some.inj same ▸ properKnown) properKnown
                wholeRest resolves
      · exact inductionHypothesis properLinks properNext wholeRest resolves

theorem isProper_of_resolveFrom {depth : Nat} {links later : Links} {path found : Resolved}
    {target : String} (properLinks : links.IsProper) (proper : path.IsProper)
    (resolves : resolveFrom files cwd depth links path target = .ok (found, later)) :
    found.IsProper ∧ later.IsProper := by
  induction depth generalizing links path target found later with
  | zero => cases resolves
  | succ depth inductionHypothesis =>
      refine isProper_of_resolveWith (fun _ _ _ _ _ => inductionHypothesis) properLinks ?_
        (areSegments_splitText target) resolves
      unfold startOf
      split
      · exact Resolved.isProper_root
      · exact proper

/-- **A path stands for a proper place**, seen from a proper place. -/
theorem isProper_of_resolve {path : String} {place : Place} (proper : IsProper cwd)
    (resolves : resolve files cwd path = .ok place) : IsProper place := by
  unfold resolve at resolves
  cases found : resolveFrom files cwd (linkDepth files cwd) [] .here (Path.tidy path) with
  | error fault =>
      rw [found] at resolves
      cases resolves
  | ok result =>
      rw [found] at resolves
      obtain rfl := Except.ok.inj resolves
      have none_known : Links.IsProper [] := fun _ _ member => nomatch member
      exact (isProper_of_resolveFrom none_known Resolved.isProper_here found).1.place proper

end Resolving
end Provenance.World
