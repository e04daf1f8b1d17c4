import Provenance.Git.Client
import Provenance.Proofs.Text.Cut

/-!
Contract: what there is to read in an output.

Owns:
- `Script.printed`, what a call prints by its script, with the exit code;
- `contentLines_eq_nil_iff`, when no line is read;
- `Text.IsLine`, and that everything that is read is such a line;
- `beginsLate`, outputs of which nothing is read though something is there.

Does **not** own: what an exit code means.
-/

set_option autoImplicit false

namespace Provenance

namespace Text

variable {mark : Char} {text : List Char}

theorem trim_eq_nil_iff : trim text = [] ↔ ∀ character ∈ text, isBlank character := by
  constructor
  · intro empty
    have blankRest : ∀ character ∈ trimLeft text, isBlank character :=
      List.rdropWhile_eq_nil_iff.mp empty
    refine List.dropWhile_eq_nil_iff.mp (Classical.byContradiction fun some => ?_)
    have visible := List.head_dropWhile_not isBlank some
    rw [blankRest _ (List.head_mem some)] at visible
    cases visible
  · intro blank
    rw [trim, trimLeft, List.dropWhile_eq_nil_iff.mpr blank]
    rfl

/-- What holds of a mark and of all pieces between marks holds of the whole text. -/
theorem forall_mem_split {property : Char → Prop} (ofMark : property mark) :
    (∀ piece ∈ split mark text, ∀ character ∈ piece, property character) ↔
      ∀ character ∈ text, property character := by
  induction text with
  | nil => simp [split]
  | cons head tail inductionHypothesis =>
      rw [List.forall_mem_cons, ← inductionHypothesis, split]
      by_cases isMark : head = mark
      · simp [isMark, ofMark]
      · rw [if_neg isMark]
        cases pieces : split mark tail with
        | nil => exact absurd pieces (split_ne_nil mark tail)
        | cons piece rest => simp [and_assoc]

theorem mem_of_mem_trim {character : Char} (member : character ∈ trim text) : character ∈ text :=
  (List.dropWhile_sublist _).mem (mem_of_mem_trimRight member)

/-- A text on one line, without white space at its ends. -/
structure IsLine (text : String) : Prop where
  noLineFeed : '\n' ∉ text.toList
  noReturn : '\r' ∉ text.toList
  trimmed : trimText text = text

/-- A piece of one line is such a text once it is trimmed. -/
theorem isLine_trim {piece : List Char} (noLineFeed : '\n' ∉ piece) (noReturn : '\r' ∉ piece) :
    IsLine (String.ofList (trim piece)) where
  noLineFeed := by
    rw [String.toList_ofList]
    exact fun member => noLineFeed (mem_of_mem_trim member)
  noReturn := by
    rw [String.toList_ofList]
    exact fun member => noReturn (mem_of_mem_trim member)
  trimmed := by rw [trimText, String.toList_ofList, trim_trim]

/-- Every line end is a line feed where line ends are unified. -/
theorem not_mem_unifyLineEnds (text : List Char) : '\r' ∉ Utf8.unifyLineEnds text := by
  fun_induction Utf8.unifyLineEnds text with
  | case1 => exact List.not_mem_nil
  | case2 rest inductionHypothesis => simpa using inductionHypothesis
  | case3 rest _ inductionHypothesis => simpa using inductionHypothesis
  | case4 character rest _ notReturn inductionHypothesis =>
      have different : '\r' ≠ character := fun same => notReturn same.symm
      exact List.not_mem_cons_of_ne_of_not_mem different inductionHypothesis

end Text

namespace Git

variable {output : String}

/-- What a call prints by a script, with its exit code. -/
def Script.printed {Time : Type} (script : Script Time) (arguments : List String) : String × Int :=
  (outputText (script.answer arguments).output, (script.answer arguments).code)

/-- No line has content just if there is nothing but white space. -/
theorem contentLines_eq_nil_iff : contentLines output = [] ↔ Text.isBlankText output := by
  have blankLine : ∀ line : List Char,
      Text.trimText (String.ofList line) = "" ↔ ∀ character ∈ line, Text.isBlank character := by
    intro line
    rw [Text.trimText, String.ofList_eq_empty_iff, String.toList_ofList, Text.trim_eq_nil_iff]
  have lineFeed : Text.isBlank '\n' = true := by decide
  rw [Text.isBlankText, List.all_eq_true, ← Text.forall_mem_split lineFeed]
  simp only [contentLines, Text.lines, Text.splitText, List.map_map, List.filter_eq_nil_iff,
    List.forall_mem_map, Function.comp_apply, Bool.not_eq_true', Bool.not_eq_false,
    String.isEmpty_iff, blankLine]

theorem not_mem_outputText (octets : List UInt8) : '\r' ∉ (outputText octets).toList := by
  rw [outputText, String.toList_ofList]
  exact Text.not_mem_unifyLineEnds _

/-- What is read off a first line is one line. -/
theorem isLine_firstLine (unified : '\r' ∉ output.toList) : Text.IsLine (firstLine output) := by
  have noLineFeed : '\n' ∉ output.toList.takeWhile (· ≠ '\n') := by
    intro member
    have different := List.mem_takeWhile_imp member
    simp at different
  exact Text.isLine_trim noLineFeed fun member =>
    unified ((List.takeWhile_sublist _).mem member)

/-- What is read off all lines are lines with content. -/
theorem isLine_of_mem_contentLines (unified : '\r' ∉ output.toList) {line : String}
    (member : line ∈ contentLines output) : line ≠ "" ∧ Text.IsLine line := by
  obtain ⟨trimmed, content⟩ := List.mem_filter.mp member
  obtain ⟨untrimmed, isLine, rfl⟩ := List.mem_map.mp trimmed
  obtain ⟨piece, isPiece, rfl⟩ := List.mem_map.mp isLine
  have noReturn : ∀ piece ∈ Text.split '\n' output.toList, ∀ character ∈ piece,
      character ≠ '\r' := by
    refine (Text.forall_mem_split (by decide)).mpr fun character isThere same => ?_
    exact unified (same ▸ isThere)
  refine ⟨by simpa using content, ?_⟩
  rw [Text.trimText, String.toList_ofList]
  exact Text.isLine_trim (Text.not_mem_of_mem_split isPiece) fun isThere =>
    noReturn piece isPiece '\r' isThere rfl

/-- Whether nothing is on the first line of an output and something behind it. -/
def beginsLate (output : String) : Bool :=
  (firstLine output).isEmpty && !Text.isBlankText output

end Git
end Provenance
