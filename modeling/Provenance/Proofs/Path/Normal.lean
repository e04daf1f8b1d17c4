import Provenance.Proofs.Path
import Provenance.Proofs.World.Location

/-!
Contract: normalized paths, and the names behind them.

Owns:
- `Path.IsKept`, the segments that stay in a normalized path;
- `Path.resolveParents_append`: names at the end of a path leave all before them as it is;
- `Path.normalize_join`, the law that a normalized path stands whole before the names;
- `Path.extended`, a normalized path with a relative path behind it, and its segments.

Does **not** own: whose paths are normalized, and what they lead to.
-/

set_option autoImplicit false

namespace Provenance.Path

open Text (split joinWith)
open World (IsName IsProper)

/-! ## Segments that stay -/

/-- A segment that can stay in a normalized path: neither empty nor `.`, and in one piece. -/
structure IsKept (segment : List Char) : Prop where
  given : segment ≠ []
  notHere : segment ≠ ['.']
  whole : '/' ∉ segment

section Segments

variable {absolute : Bool} {kept segments : List (List Char)}

theorem isKept_parent : IsKept ['.', '.'] :=
  ⟨by decide, by decide, by decide⟩

theorem isKept_of_mem_resolveParents (isKept : ∀ segment ∈ kept, IsKept segment)
    (whole : ∀ segment ∈ segments, '/' ∉ segment) :
    ∀ segment ∈ resolveParents absolute kept segments, IsKept segment := by
  fun_induction resolveParents absolute kept segments with
  | case1 kept => exact fun segment member => isKept segment (List.mem_reverse.mp member)
  | case2 kept segment rest dropped inductionHypothesis =>
      exact inductionHypothesis isKept (List.forall_mem_cons.mp whole).2
  | case3 rest stays inductionHypothesis =>
      refine inductionHypothesis ?_ (List.forall_mem_cons.mp whole).2
      split
      · exact fun _ member => nomatch member
      · exact List.forall_mem_singleton.mpr isKept_parent
  | case4 rest others stays inductionHypothesis =>
      exact inductionHypothesis (List.forall_mem_cons.mpr ⟨isKept_parent, isKept⟩)
        (List.forall_mem_cons.mp whole).2
  | case5 rest last others notParent stays inductionHypothesis =>
      exact inductionHypothesis (List.forall_mem_cons.mp isKept).2 (List.forall_mem_cons.mp whole).2
  | case6 kept segment rest stays notParent inductionHypothesis =>
      obtain ⟨given, notHere⟩ := not_or.mp stays
      obtain ⟨first, others⟩ := List.forall_mem_cons.mp whole
      exact inductionHypothesis (List.forall_mem_cons.mpr ⟨⟨given, notHere, first⟩, isKept⟩) others

theorem resolveParents_dropped {segment : List Char} {rest : List (List Char)}
    (dropped : segment = [] ∨ segment = ['.']) :
    resolveParents absolute kept (segment :: rest) = resolveParents absolute kept rest := by
  cases kept <;> rw [resolveParents, if_pos dropped]

theorem resolveParents_kept {segment : List Char} {rest : List (List Char)}
    (stays : ¬ (segment = [] ∨ segment = ['.'])) (notParent : segment ≠ ['.', '.']) :
    resolveParents absolute kept (segment :: rest) =
      resolveParents absolute (segment :: kept) rest := by
  cases kept <;> rw [resolveParents, if_neg stays, if_neg notParent]

/-- Segments leave a stack behind, from which those after them go on. -/
theorem exists_stack (absolute : Bool) (kept segments : List (List Char)) :
    ∃ stack, resolveParents absolute kept segments = stack.reverse ∧
      ∀ more, resolveParents absolute kept (segments ++ more) =
        resolveParents absolute stack more := by
  fun_induction resolveParents absolute kept segments with
  | case1 kept => exact ⟨kept, rfl, fun _ => rfl⟩
  | case2 kept segment rest dropped inductionHypothesis =>
      simpa only [List.cons_append, resolveParents_dropped dropped] using inductionHypothesis
  | case3 rest stays inductionHypothesis =>
      simpa only [List.cons_append, resolveParents, if_neg stays, if_true] using inductionHypothesis
  | case4 rest others stays inductionHypothesis =>
      simpa only [List.cons_append, resolveParents, if_neg stays, if_true] using inductionHypothesis
  | case5 rest last others notParent stays inductionHypothesis =>
      simpa only [List.cons_append, resolveParents, if_neg stays, if_neg notParent, if_true]
        using inductionHypothesis
  | case6 kept segment rest stays notParent inductionHypothesis =>
      simpa only [List.cons_append, resolveParents_kept stays notParent] using inductionHypothesis

theorem resolveParents_names {names : List String} (proper : IsProper names) :
    resolveParents absolute kept (names.map String.toList) =
      kept.reverse ++ names.map String.toList := by
  induction names generalizing kept with
  | nil => rw [List.map_nil, resolveParents, List.append_nil]
  | cons name rest inductionHypothesis =>
      obtain ⟨isName, properRest⟩ := List.forall_mem_cons.mp proper
      have stays : ¬ (name.toList = [] ∨ name.toList = ['.']) := by
        rintro (empty | here)
        · exact isName.given (String.toList_inj.mp empty)
        · exact isName.notHere (String.toList_inj.mp here)
      have notParent : name.toList ≠ ['.', '.'] :=
        fun parent => isName.notParent (String.toList_inj.mp parent)
      rw [List.map_cons, resolveParents_kept stays notParent, inductionHypothesis properRest,
        List.reverse_cons, List.append_assoc]
      rfl

/-- **Names at the end of a path leave all before them as it is.**  No name is dropped, and none
drops the one before it. -/
theorem resolveParents_append {names : List String} (proper : IsProper names) :
    resolveParents absolute kept (segments ++ names.map String.toList) =
      resolveParents absolute kept segments ++ names.map String.toList := by
  obtain ⟨stack, resolved, goesOn⟩ := exists_stack absolute kept segments
  rw [goesOn, resolveParents_names proper, resolved]

/-- An empty segment and a `.` at the end of a path are dropped. -/
theorem resolveParents_append_dropped {segment : List Char}
    (dropped : segment = [] ∨ segment = ['.']) :
    resolveParents absolute kept (segments ++ [segment]) =
      resolveParents absolute kept segments := by
  obtain ⟨stack, resolved, goesOn⟩ := exists_stack absolute kept segments
  rw [goesOn, resolveParents_dropped dropped, resolved, resolveParents]

end Segments

/-! ## Roots -/

/-- The root of a path that starts with a slash is two slashes just if a second one stands there and
no third. -/
theorem rootOf_cons (path : List Char) :
    rootOf ('/' :: path) =
      if path.head? = some '/' ∧ path.tail.head? ≠ some '/' then ['/', '/'] else ['/'] := by
  match path with
  | [] => rfl
  | [second] => by_cases slash : second = '/' <;> simp [rootOf, slash]
  | second :: third :: rest =>
      by_cases slash : second = '/'
      · by_cases again : third = '/' <;> simp [rootOf, slash, again]
      · simp [rootOf, slash]

/-- What stands behind a path adds no slash to those in front of it. -/
theorem rootOf_append {path rest : List Char} (given : path ≠ [])
    (stops : path.getLast? = some '/' → rest.head? ≠ some '/') :
    rootOf (path ++ rest) = rootOf path := by
  cases path with
  | nil => exact absurd rfl given
  | cons first others =>
      by_cases slash : first = '/'
      · subst slash
        rw [List.cons_append, rootOf_cons, rootOf_cons]
        match others with
        | [] => simp [stops rfl]
        | [second] =>
            by_cases slash : second = '/'
            · subst slash
              simp [stops rfl]
            · simp [slash]
        | second :: third :: more => rfl
      · simp [rootOf, slash]

/-! ## Normal forms -/

/-- The slashes in front of a normalized path. -/
def rootText (path : String) : String :=
  String.ofList (rootOf path.toList)

/-- The segments of a normalized path. -/
def keptSegments (path : String) : List String :=
  (resolveParents (!(rootOf path.toList).isEmpty) [] (split '/' path.toList)).map String.ofList

theorem isKept_resolved (path : String) :
    ∀ piece ∈ resolveParents (!(rootOf path.toList).isEmpty) [] (split '/' path.toList),
      IsKept piece :=
  isKept_of_mem_resolveParents (List.forall_mem_nil IsKept)
    fun _ isSplit => Text.not_mem_of_mem_split isSplit

theorem isKept_keptSegments (path : String) :
    ∀ segment ∈ keptSegments path, IsKept segment.toList := by
  intro segment member
  obtain ⟨piece, isPiece, rfl⟩ := List.mem_map.mp member
  rw [String.toList_ofList]
  exact isKept_resolved path piece isPiece

theorem isKept_of_isProper {names : List String} (proper : IsProper names) :
    ∀ name ∈ names, IsKept name.toList := by
  intro name member
  have isName := proper name member
  exact ⟨fun empty => isName.given (String.toList_inj.mp empty),
    fun here => isName.notHere (String.toList_inj.mp here), isName.whole⟩

theorem joinWith_ne_nil {pieces : List (List Char)} (given : pieces ≠ [])
    (isKept : ∀ piece ∈ pieces, IsKept piece) : joinWith '/' pieces ≠ [] := by
  intro empty
  have joined := Text.split_joinWith given fun piece member => (isKept piece member).whole
  rw [empty] at joined
  exact (isKept [] (joined ▸ List.mem_singleton_self _)).given rfl

/-- A normalized path is its root and its segments. -/
theorem normalize_eq (path : String) :
    normalize path = ofSegments (rootText path) (keptSegments path) := by
  have isKept := isKept_resolved path
  unfold normalize rootText keptSegments ofSegments
  simp only
  generalize resolveParents (!(rootOf path.toList).isEmpty) [] (split '/' path.toList) = kept at *
  generalize rootOf path.toList = root
  split
  · next empty =>
      obtain ⟨rfl, nothing⟩ := List.append_eq_nil_iff.mp empty
      obtain rfl : kept = [] := by
        by_contra given
        exact joinWith_ne_nil given isKept nothing
      rfl
  · next given =>
      have full : ¬ ((String.ofList root).isEmpty && (kept.map String.ofList).isEmpty) = true := by
        intro empty
        obtain ⟨rootless, none_kept⟩ := Bool.and_eq_true_iff.mp empty
        obtain rfl := List.map_eq_nil_iff.mp (List.isEmpty_iff.mp none_kept)
        obtain rfl := String.ofList_eq_empty_iff.mp (String.isEmpty_iff.mp rootless)
        exact given rfl
      rw [if_neg full, ← String.toList_inj, String.toList_append,
        @Text.toList_intercalate '/' "/" rfl, String.toList_ofList, String.toList_ofList]
      simp [Function.comp_def]

/-! ## Paths below a path -/

theorem isAbsolute_iff {path : String} : isAbsolute path = true ↔ path.toList.head? = some '/' := by
  rw [isAbsolute, Text.startsWith, List.isPrefixOf_iff_prefix, List.head?_eq_some_iff]
  exact exists_congr fun rest => eq_comm

theorem endsWith_slash_iff {path : String} :
    Text.endsWith "/" path = true ↔ path.toList.getLast? = some '/' := by
  rw [Text.endsWith, List.isSuffixOf_iff_suffix, List.getLast?_eq_some_iff]
  exact exists_congr fun front => eq_comm

theorem rootOf_join {path relative : String} (given : path ≠ "")
    (below : isAbsolute relative = false) :
    rootOf (join path relative).toList = rootOf path.toList := by
  have nonempty : path.toList ≠ [] := fun empty => given (String.toList_inj.mp empty)
  have starts : relative.toList.head? ≠ some '/' := by
    rw [Ne, ← isAbsolute_iff, below]
    exact Bool.false_ne_true
  have full : path.isEmpty = false := by simpa using given
  rw [join, below, if_neg Bool.false_ne_true, full, Bool.false_or]
  by_cases slash : Text.endsWith "/" path = true
  · rw [if_pos slash, String.toList_append]
    exact rootOf_append nonempty fun _ => starts
  · rw [if_neg slash, String.toList_append, String.toList_append, List.append_assoc]
    exact rootOf_append nonempty fun ends => absurd (endsWith_slash_iff.mpr ends) slash

theorem isAbsolute_ofSegments {names : List String} (proper : IsProper names) :
    isAbsolute (ofSegments "" names) = false := by
  by_cases given : names = []
  · subst given
    decide
  rw [Bool.eq_false_iff, Ne, isAbsolute_iff, Location.ofSegments_of_ne given]
  intro slash
  have pieces := Location.split_intercalate proper given
  obtain ⟨rest, text_eq⟩ := List.head?_eq_some_iff.mp slash
  obtain ⟨name, others, rfl⟩ := List.exists_cons_of_ne_nil given
  rw [text_eq, split, if_pos rfl, List.map_cons] at pieces
  exact (proper name List.mem_cons_self).given (String.toList_inj.mp (List.cons.inj pieces).1.symm)

theorem keptSegments_join {path : String} (given : path ≠ "") {names : List String}
    (proper : IsProper names) :
    keptSegments (join path (ofSegments "" names)) = keptSegments path ++ names := by
  have below := isAbsolute_ofSegments proper
  obtain ⟨before, pieces, directory⟩ := exists_split_join path below
  unfold keptSegments
  rw [rootOf_join given below, pieces]
  have front : resolveParents (!(rootOf path.toList).isEmpty) [] (split '/' path.toList) =
      resolveParents (!(rootOf path.toList).isEmpty) [] before := by
    rcases directory with whole | slash
    · rw [whole]
    · rw [slash, resolveParents_append_dropped (.inl rfl)]
  rw [front]
  by_cases none_left : names = []
  · subst none_left
    have here : split '/' (ofSegments "" []).toList = [['.']] := rfl
    rw [here, resolveParents_append_dropped (.inr rfl), List.append_nil]
  · rw [Location.ofSegments_of_ne none_left, Location.split_intercalate proper none_left,
      resolveParents_append proper, List.map_append, List.map_map]
    simp [Function.comp_def]

/-- **A normalized path stands whole before the names below it.** -/
theorem normalize_join {path : String} (given : path ≠ "") {names : List String}
    (proper : IsProper names) :
    normalize (join path (ofSegments "" names)) =
      ofSegments (rootText path) (keptSegments path ++ names) := by
  rw [normalize_eq, keptSegments_join given proper, rootText,
    rootOf_join given (isAbsolute_ofSegments proper), rootText]

/-! ## Texts of normal forms -/

section Texts

variable (path : String) {names : List String}

/-- The slashes in front of a normalized path are no names. -/
theorem split_ofSegments (isKept : ∀ segment ∈ names, IsKept segment.toList) (given : names ≠ []) :
    ∃ count, split '/' (ofSegments (rootText path) names).toList =
      List.replicate count [] ++ names.map String.toList := by
  obtain ⟨count, root⟩ := exists_rootOf path.toList
  refine ⟨count, ?_⟩
  have whole : ∀ piece ∈ names.map String.toList, '/' ∉ piece := by
    intro piece member
    obtain ⟨name, isThere, rfl⟩ := List.mem_map.mp member
    exact (isKept name isThere).whole
  rw [Location.ofSegments_of_names _ given, String.toList_append, rootText, String.toList_ofList,
    root, split_replicate_append, Location.toList_intercalate_slash,
    Text.split_joinWith (by simpa using given) whole]

/-- A root without segments is all slashes, and `.` where there is none. -/
theorem ofSegments_root : ofSegments (rootText path) [] = "." ∧ rootText path = "" ∨
    ofSegments (rootText path) [] = rootText path ∧ Text.endsWith "/" (rootText path) = true := by
  obtain ⟨count, root⟩ := exists_rootOf path.toList
  rw [rootText, root]
  cases count with
  | zero => exact .inl ⟨rfl, rfl⟩
  | succ count =>
      refine .inr ⟨?_, ?_⟩
      · simp [ofSegments, List.replicate_succ]
      · rw [endsWith_slash_iff, String.toList_ofList, List.getLast?_replicate]
        rfl

theorem segments_slashes (count : Nat) :
    segments (String.ofList (List.replicate count '/')) = [] := by
  have pieces := split_replicate_append count []
  rw [List.append_nil] at pieces
  rw [segments, String.toList_ofList, pieces]
  simp [split]

/-- The segments of a path that is made of a root and segments are these segments. -/
theorem segments_ofSegments (isKept : ∀ segment ∈ names, IsKept segment.toList) :
    segments (ofSegments (rootText path) names) = names := by
  by_cases given : names = []
  · subst given
    rcases ofSegments_root path with ⟨here, -⟩ | ⟨root, -⟩
    · rw [here]
      decide
    · obtain ⟨count, slashes⟩ := exists_rootOf path.toList
      rw [root, rootText, slashes, segments_slashes]
  obtain ⟨count, pieces⟩ := split_ofSegments path isKept given
  have slashes : (List.replicate count ([] : List Char)).filter
      (fun segment => decide (segment ≠ [] ∧ segment ≠ ['.'])) = [] := by
    simp
  have all_stay : ∀ piece ∈ names.map String.toList,
      decide (piece ≠ [] ∧ piece ≠ ['.']) = true := by
    intro piece member
    obtain ⟨name, isThere, rfl⟩ := List.mem_map.mp member
    exact decide_eq_true ⟨(isKept name isThere).given, (isKept name isThere).notHere⟩
  rw [segments, pieces, List.filter_append, slashes, List.filter_eq_self.mpr all_stay,
    List.nil_append, List.map_map]
  simp [Function.comp_def]

/-- A path that ends in a name does not end in a slash. -/
theorem not_endsWith_ofSegments (isKept : ∀ segment ∈ names, IsKept segment.toList)
    (given : names ≠ []) : Text.endsWith "/" (ofSegments (rootText path) names) = false := by
  obtain ⟨count, pieces⟩ := split_ofSegments path isKept given
  rw [Bool.eq_false_iff, Ne, endsWith_slash_iff]
  intro slash
  obtain ⟨front, text_eq⟩ := List.getLast?_eq_some_iff.mp slash
  rcases List.eq_nil_or_concat names with rfl | ⟨others, last, rfl⟩
  · exact given rfl
  rw [text_eq, Text.split_append_cons, List.concat_eq_append, List.map_append, ← List.append_assoc]
    at pieces
  have last_eq := (List.append_inj' pieces rfl).2
  exact (isKept last (by simp)).given (List.cons.inj last_eq).1.symm

end Texts

/-! ## Extended paths -/

/-- A normalized path with a relative path behind it. -/
def extended (normal relative : String) : String :=
  if relative = "." then normal
  else if normal = "." then relative
  else if Text.endsWith "/" normal then normal ++ relative
  else normal ++ "/" ++ relative

/-- **A path below another one is normalized to the normal form of this one, and behind it the
relative path as it is.** -/
theorem normalize_join_of_isRelative {path relative : String} (given : path ≠ "")
    (isRelative : Location.IsRelative relative) :
    normalize (join path relative) = extended (normalize path) relative := by
  obtain ⟨names, proper, rfl⟩ := isRelative
  have isKept := isKept_keptSegments path
  rw [normalize_join given proper, normalize_eq path, extended]
  by_cases none_left : names = []
  · subst none_left
    rw [Location.ofSegments_nil, if_pos rfl, List.append_nil]
  rw [if_neg (Location.ofSegments_ne_here proper none_left)]
  by_cases none_kept : keptSegments path = []
  · rw [none_kept, List.nil_append]
    rcases ofSegments_root path with ⟨here, rootless⟩ | ⟨root, slash⟩
    · rw [if_pos here, rootless]
    · have notHere : rootText path ≠ "." := by
        intro here
        rw [here] at slash
        exact absurd slash (by decide)
      rw [root, if_neg notHere, if_pos slash, Location.ofSegments_of_names _ none_left,
        Location.ofSegments_of_ne none_left]
  · have notHere : ofSegments (rootText path) (keptSegments path) ≠ "." := by
      intro here
      have none_there := segments_ofSegments path isKept
      rw [here] at none_there
      exact none_kept none_there.symm
    rw [if_neg notHere, not_endsWith_ofSegments path isKept none_kept, if_neg Bool.false_ne_true,
      Location.ofSegments_of_names _ none_kept, Location.ofSegments_of_ne none_left,
      Location.ofSegments_of_names _ (List.append_ne_nil_of_left_ne_nil none_kept names),
      Location.intercalate_append none_kept none_left]
    simp only [String.append_assoc]

theorem segments_normalize (path : String) : segments (normalize path) = keptSegments path := by
  rw [normalize_eq, segments_ofSegments path (isKept_keptSegments path)]

theorem segments_of_names {names : List String} (proper : IsProper names) :
    segments (ofSegments "" names) = names :=
  segments_ofSegments "" (isKept_of_isProper proper)

/-- The segments of a relative path stand behind those of the path that it extends. -/
theorem segments_extended {path relative : String} (given : path ≠ "")
    (isRelative : Location.IsRelative relative) :
    segments (extended (normalize path) relative) =
      segments (normalize path) ++ segments relative := by
  rw [← normalize_join_of_isRelative given isRelative]
  obtain ⟨names, proper, rfl⟩ := isRelative
  rw [segments_normalize, segments_normalize, keptSegments_join given proper,
    segments_of_names proper]

/-- Relative paths with the same segments are the same. -/
theorem eq_of_segments {relative other : String} (isRelative : Location.IsRelative relative)
    (isOther : Location.IsRelative other) (same : segments relative = segments other) :
    relative = other := by
  obtain ⟨names, proper, rfl⟩ := isRelative
  obtain ⟨others, properOthers, rfl⟩ := isOther
  rw [segments_of_names proper, segments_of_names properOthers] at same
  rw [same]

theorem isPrefix_extended {normal : String} (notHere : normal ≠ ".") (relative : String) :
    normal.toList <+: (extended normal relative).toList := by
  rw [extended, if_neg notHere]
  split
  · exact List.prefix_refl _
  · split
    · rw [String.toList_append]
      exact List.prefix_append _ _
    · rw [String.toList_append, String.toList_append, List.append_assoc]
      exact List.prefix_append _ _

end Provenance.Path
