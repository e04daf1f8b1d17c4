import Provenance.Path
import Provenance.Proofs.Text.Cut

/-!
Contract: the segments of tidied and joined paths.

Owns:
- `EndsInName`, segments behind whose last name no slash stands;
- `endsInName_tidy` and `endsInName_join`: the segments of such paths do;
- `name_join`: the name of a file in a directory.

Does **not** own: where a path leads.
-/

set_option autoImplicit false

namespace Provenance.Path

open Text (split joinWith splitText)

variable {path directory file : String}

/-- Segments behind whose last name no slash stands. -/
def EndsInName (segments : List String) : Prop :=
  segments.getLast? ≠ some "" ∨ ∀ segment ∈ segments, segment = ""

theorem EndsInName.tail {segment : String} {rest : List String}
    (ends : EndsInName (segment :: rest)) : EndsInName rest := by
  rcases ends with named | empty
  · cases rest with
    | nil => exact .inl (by simp)
    | cons next others => exact .inl (by rwa [List.getLast?_cons_cons] at named)
  · exact .inr fun other member => empty other (List.mem_cons_of_mem _ member)

theorem EndsInName.eq_nil {segment : String} {rest : List String} (given : segment ≠ "")
    (ends : EndsInName (segment :: rest)) (empty : rest.all String.isEmpty = true) : rest = [] := by
  rcases ends with named | allEmpty
  · cases rest with
    | nil => rfl
    | cons next others =>
        rw [List.getLast?_cons_cons] at named
        have last := List.getLast?_eq_some_getLast (List.cons_ne_nil next others)
        have isEmpty := List.all_eq_true.mp empty _ (List.getLast_mem (List.cons_ne_nil next others))
        rw [last, String.isEmpty_iff.mp isEmpty] at named
        exact absurd rfl named
  · exact absurd (allEmpty segment List.mem_cons_self) given

theorem endsInName_of_last {segments : List String} (last : String)
    (isLast : segments.getLast? = some last) (given : last ≠ "") : EndsInName segments :=
  .inl (by rw [isLast]; exact fun same => given (Option.some.inj same))

/-! ## Joined paths -/

/-- A path below a directory has its pieces behind those of the directory, of which an empty one at
the end is left out. -/
theorem exists_split_join (directory : String) {relative : String}
    (below : isAbsolute relative = false) :
    ∃ before, split '/' (join directory relative).toList = before ++ split '/' relative.toList ∧
      (split '/' directory.toList = before ∨ split '/' directory.toList = before ++ [[]]) := by
  rw [join, below, if_neg Bool.false_ne_true]
  by_cases empty : directory.isEmpty = true
  · obtain rfl := String.isEmpty_iff.mp empty
    exact ⟨[], by simp, .inr rfl⟩
  by_cases slash : Text.endsWith "/" directory = true
  · obtain ⟨before, directory_eq⟩ := List.isSuffixOf_iff_suffix.mp slash
    have front : directory.toList = before ++ '/' :: [] := directory_eq.symm
    refine ⟨split '/' before, ?_, .inr ?_⟩
    · rw [slash, Bool.or_true, if_pos rfl, String.toList_append, front, List.append_assoc]
      exact Text.split_append_cons '/' before relative.toList
    · rw [front, Text.split_append_cons]
      rfl
  · refine ⟨split '/' directory.toList, ?_, .inl rfl⟩
    rw [if_neg (by simp [empty, slash]), String.toList_append, String.toList_append,
      List.append_assoc]
    exact Text.split_append_cons '/' directory.toList relative.toList

theorem isAbsolute_of_whole (whole : '/' ∉ file.toList) : isAbsolute file = false := by
  rw [isAbsolute, Text.startsWith]
  cases characters : file.toList with
  | nil => rfl
  | cons first rest =>
      rw [characters, List.mem_cons, not_or] at whole
      change (('/' == first) && _) = false
      rw [beq_eq_false_iff_ne.mpr whole.1, Bool.false_and]

/-- A file's name is the last piece of its path. -/
theorem exists_split_join_file (directory : String) (whole : '/' ∉ file.toList) :
    ∃ before, split '/' (join directory file).toList = before ++ [file.toList] := by
  obtain ⟨before, pieces, -⟩ := exists_split_join directory (isAbsolute_of_whole whole)
  exact ⟨before, by rw [pieces, Text.split_of_not_mem whole]⟩

theorem endsInName_join (directory : String) (given : file ≠ "") (whole : '/' ∉ file.toList) :
    EndsInName (splitText '/' (join directory file)) := by
  obtain ⟨before, pieces⟩ := exists_split_join_file directory whole
  refine endsInName_of_last file ?_ given
  rw [splitText, pieces, List.map_append, List.map_singleton, String.ofList_toList,
    List.getLast?_append]
  rfl

/-- The name of a file in a directory. -/
theorem name_join (directory : String) (given : file ≠ "") (notHere : file ≠ ".")
    (whole : '/' ∉ file.toList) : name (join directory file) = file := by
  obtain ⟨before, pieces⟩ := exists_split_join_file directory whole
  have kept : file.toList ≠ [] ∧ file.toList ≠ ['.'] := by
    refine ⟨fun empty => given (String.toList_eq_nil_iff.mp empty), fun here => notHere ?_⟩
    rw [← String.ofList_toList (s := file), here]
  rw [name, segments, pieces, List.filter_append, List.filter_cons_of_pos (by simpa using kept),
    List.filter_nil, List.map_append, List.map_singleton, String.ofList_toList, List.getLast?_append]
  rfl

theorem ending_join (directory : String) (given : file ≠ "") (notHere : file ≠ ".")
    (whole : '/' ∉ file.toList) : ending (join directory file) = ending file := by
  have alone : join "" file = "" ++ file := by
    unfold join
    split
    · exact (String.empty_append).symm
    · rfl
  have name_eq := name_join "" given notHere whole
  rw [alone, String.empty_append] at name_eq
  rw [ending, ending, name_join directory given notHere whole, name_eq]

/-! ## Tidied paths -/

theorem exists_rootOf (characters : List Char) :
    ∃ count, rootOf characters = List.replicate count '/' := by
  unfold rootOf
  split
  · exact ⟨1, rfl⟩
  · exact ⟨2, rfl⟩
  · exact ⟨1, rfl⟩
  · exact ⟨0, rfl⟩

theorem split_replicate_append (count : Nat) (text : List Char) :
    split '/' (List.replicate count '/' ++ text) = List.replicate count [] ++ split '/' text := by
  induction count with
  | zero => rfl
  | succ count inductionHypothesis =>
      rw [List.replicate_succ, List.replicate_succ, List.cons_append, List.cons_append, split,
        if_pos rfl, inductionHypothesis]

theorem given_of_mem_segments {segment : String} (member : segment ∈ segments path) :
    segment ≠ "" ∧ '/' ∉ segment.toList := by
  obtain ⟨piece, isPiece, rfl⟩ := List.mem_map.mp member
  obtain ⟨isSplit, kept⟩ := List.mem_filter.mp isPiece
  rw [decide_eq_true_eq] at kept
  rw [String.toList_ofList]
  refine ⟨fun empty => kept.1 ?_, Text.not_mem_of_mem_split isSplit⟩
  rw [← String.toList_ofList (l := piece), empty]
  rfl

/-- A tidied path ends in a name, or it is all slashes. -/
theorem endsInName_tidy (path : String) : EndsInName (splitText '/' (tidy path)) := by
  obtain ⟨count, root⟩ := exists_rootOf path.toList
  rw [tidy, ofSegments, root]
  cases names : segments path with
  | nil =>
      split
      · exact endsInName_of_last "." rfl (by decide)
      · have text : (String.ofList (List.replicate count '/') ++ "/".intercalate []).toList =
            List.replicate count '/' ++ [] := by
          rw [String.toList_append, String.toList_ofList]
          rfl
        rw [splitText, text, split_replicate_append]
        refine .inr fun segment member => ?_
        obtain ⟨piece, isPiece, rfl⟩ := List.mem_map.mp member
        rcases List.mem_append.mp isPiece with slash | last
        · rw [List.eq_of_mem_replicate slash]
        · rw [List.mem_singleton.mp last]
  | cons first rest =>
      have given : ∀ segment ∈ first :: rest, segment ≠ "" ∧ '/' ∉ segment.toList :=
        fun segment member => given_of_mem_segments (names ▸ member : segment ∈ segments path)
      rw [List.isEmpty_cons, Bool.and_false, if_neg Bool.false_ne_true]
      have pieces : split '/' (joinWith '/' ((first :: rest).map String.toList)) =
          (first :: rest).map String.toList := by
        refine Text.split_joinWith (List.cons_ne_nil _ _) fun piece member => ?_
        obtain ⟨segment, isSegment, rfl⟩ := List.mem_map.mp member
        exact (given segment isSegment).2
      have text : splitText '/' (String.ofList (List.replicate count '/') ++
          "/".intercalate (first :: rest)) = List.replicate count "" ++ first :: rest := by
        rw [splitText, String.toList_append, String.toList_ofList,
          @Text.toList_intercalate '/' "/" rfl, split_replicate_append, pieces]
        simp [Function.comp_def]
      rw [text]
      refine endsInName_of_last ((first :: rest).getLast (List.cons_ne_nil _ _)) ?_
        (given _ (List.getLast_mem _)).1
      rw [List.getLast?_append, List.getLast?_eq_some_getLast (List.cons_ne_nil first rest)]
      rfl

end Provenance.Path
