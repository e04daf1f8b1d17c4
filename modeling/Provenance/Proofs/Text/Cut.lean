import Mathlib.Data.List.DropRight
import Mathlib.Data.List.TakeWhile
import Provenance.Text.Blank

/-!
Contract: cutting a text at its marks, and the white space at its ends.

Owns:
- what `cutLast?` returns, as an equation of texts;
- how `split` passes a mark, and that it undoes `joinWith`;
- when a text has no white space at an end, and how `trim` passes a mark.

Does **not** own: what the text left and right of a mark means.
-/

set_option autoImplicit false

namespace Provenance.Text

variable {mark : Char} {text before after : List Char}

/-! ## The last mark -/

theorem cutLast?_eq_none_iff : cutLast? mark text = none ↔ mark ∉ text := by
  induction text with
  | nil => simp [cutLast?]
  | cons head tail inductionHypothesis =>
      rw [cutLast?, List.mem_cons, not_or, ← inductionHypothesis]
      cases cutLast? mark tail with
      | some pieces => simp
      | none => simp [eq_comm]

/-- A text is cut at a mark that no other follows. -/
theorem cutLast?_append (last : mark ∉ after) :
    cutLast? mark (before ++ mark :: after) = some (before, after) := by
  induction before with
  | nil => rw [List.nil_append, cutLast?, cutLast?_eq_none_iff.mpr last, if_pos rfl]
  | cons head tail inductionHypothesis =>
      rw [List.cons_append, cutLast?, inductionHypothesis]

theorem eq_append_of_cutLast? (cut : cutLast? mark text = some (before, after)) :
    text = before ++ mark :: after ∧ mark ∉ after := by
  induction text generalizing before with
  | nil => cases cut
  | cons head tail inductionHypothesis =>
      rw [cutLast?] at cut
      cases cutTail : cutLast? mark tail with
      | some pieces =>
          rw [cutTail] at cut
          obtain ⟨rfl, rfl⟩ := Prod.mk.inj (Option.some.inj cut)
          obtain ⟨tail_eq, last⟩ := inductionHypothesis cutTail
          exact ⟨by rw [tail_eq]; rfl, last⟩
      | none =>
          rw [cutTail] at cut
          by_cases isMark : head = mark
          · rw [if_pos isMark] at cut
            obtain ⟨rfl, rfl⟩ := Prod.mk.inj (Option.some.inj cut)
            exact ⟨by rw [isMark]; rfl, cutLast?_eq_none_iff.mp cutTail⟩
          · rw [if_neg isMark] at cut
            cases cut

/-! ## All marks -/

/-- A text is cut at a mark into the pieces before it and those behind it. -/
theorem split_append_cons (mark : Char) (before after : List Char) :
    split mark (before ++ mark :: after) = split mark before ++ split mark after := by
  induction before with
  | nil => simp [split]
  | cons head tail inductionHypothesis =>
      rw [List.cons_append]
      by_cases isMark : head = mark
      · simp only [split, if_pos isMark, inductionHypothesis, List.cons_append]
      · simp only [split, if_neg isMark, inductionHypothesis]
        cases pieces : split mark tail with
        | nil => exact absurd pieces (split_ne_nil mark tail)
        | cons piece rest => rfl

theorem not_mem_of_mem_split {piece : List Char} (member : piece ∈ split mark text) :
    mark ∉ piece := by
  induction text generalizing piece with
  | nil =>
      rw [List.mem_singleton.mp member]
      exact List.not_mem_nil
  | cons head tail inductionHypothesis =>
      rw [split] at member
      by_cases isMark : head = mark
      · rw [if_pos isMark] at member
        rcases List.mem_cons.mp member with rfl | later
        · exact List.not_mem_nil
        · exact inductionHypothesis later
      · rw [if_neg isMark] at member
        cases pieces : split mark tail with
        | nil => exact absurd pieces (split_ne_nil mark tail)
        | cons first rest =>
            rw [pieces] at member inductionHypothesis
            rcases List.mem_cons.mp member with rfl | later
            · have absent : mark ∉ first := inductionHypothesis List.mem_cons_self
              exact List.not_mem_cons_of_ne_of_not_mem (Ne.symm isMark) absent
            · exact inductionHypothesis (List.mem_cons_of_mem _ later)

theorem split_of_not_mem (absent : mark ∉ text) : split mark text = [text] := by
  induction text with
  | nil => rfl
  | cons head tail inductionHypothesis =>
      rw [List.mem_cons, not_or] at absent
      rw [split, if_neg (Ne.symm absent.1), inductionHypothesis absent.2]

theorem joinWith_cons {piece : List Char} {rest : List (List Char)} (more : rest ≠ []) :
    joinWith mark (piece :: rest) = piece ++ mark :: joinWith mark rest := by
  cases rest with
  | nil => exact absurd rfl more
  | cons next others => rfl

theorem joinWith_append {first second : List (List Char)} (given : first ≠ [])
    (more : second ≠ []) :
    joinWith mark (first ++ second) = joinWith mark first ++ mark :: joinWith mark second := by
  induction first with
  | nil => exact absurd rfl given
  | cons piece rest inductionHypothesis =>
      cases rest with
      | nil => exact joinWith_cons more
      | cons next others =>
          have joins := inductionHypothesis (List.cons_ne_nil next others)
          rw [List.cons_append, joinWith_cons (List.append_ne_nil_of_left_ne_nil
            (List.cons_ne_nil next others) second), joins,
            joinWith_cons (List.cons_ne_nil next others), List.append_assoc, List.cons_append]

/-- Pieces without a mark are found again when they have been joined. -/
theorem split_joinWith {pieces : List (List Char)} (given : pieces ≠ [])
    (whole : ∀ piece ∈ pieces, mark ∉ piece) : split mark (joinWith mark pieces) = pieces := by
  induction pieces with
  | nil => exact absurd rfl given
  | cons piece rest inductionHypothesis =>
      have first : split mark piece = [piece] := split_of_not_mem (whole piece List.mem_cons_self)
      cases rest with
      | nil => exact first
      | cons next others =>
          have others_eq := inductionHypothesis (List.cons_ne_nil next others)
            fun piece member => whole piece (List.mem_cons_of_mem _ member)
          rw [joinWith_cons (List.cons_ne_nil next others), split_append_cons, first, others_eq]
          rfl

theorem splitText_eq_iff {whole : String} {pieces : List String} :
    splitText mark whole = pieces ↔ split mark whole.toList = pieces.map String.toList := by
  rw [splitText]
  constructor
  · rintro rfl
    simp [Function.comp_def]
  · intro split_eq
    simp [split_eq, Function.comp_def]

/-- Texts with a mark between them. -/
theorem toList_intercalate {separator : String} (isMark : separator.toList = [mark])
    (texts : List String) :
    (separator.intercalate texts).toList = joinWith mark (texts.map String.toList) := by
  rw [String.toList_intercalate, isMark]
  induction texts with
  | nil => rfl
  | cons text rest inductionHypothesis =>
      cases rest with
      | nil => simp [joinWith]
      | cons next others =>
          rw [List.map_cons, List.map_cons, List.intercalate_cons_cons, ← List.map_cons,
            inductionHypothesis, joinWith_cons (by simp)]
          simp

/-- A run of marks that is gone from the end of a text is gone for good. -/
theorem dropTrailing_dropTrailing (mark : Char) (text : List Char) :
    dropTrailing mark (dropTrailing mark text) = dropTrailing mark text :=
  List.rdropWhile_idempotent _ text

/-- No mark is at the end of a text behind whose last piece none stands. -/
theorem dropTrailing_append (given : after ≠ []) (absent : mark ∉ after) :
    dropTrailing mark (before ++ after) = before ++ after := by
  refine List.rdropWhile_eq_self_iff.mpr fun nonempty isMark => absent ?_
  rw [← of_decide_eq_true isMark, List.getLast_append_of_ne_nil nonempty given]
  exact List.getLast_mem given

/-- However many marks are put at the end of a text, they are dropped again. -/
theorem dropTrailing_append_replicate (mark : Char) (text : List Char) (count : Nat) :
    dropTrailing mark (text ++ List.replicate count mark) = dropTrailing mark text := by
  induction count with
  | zero => rw [List.replicate_zero, List.append_nil]
  | succ count inductionHypothesis =>
      rw [List.replicate_succ', ← List.append_assoc]
      exact (List.rdropWhile_concat_pos _ _ mark (decide_eq_true rfl)).trans inductionHypothesis

/-! ## White space at the ends -/

theorem trimLeft_eq_self_iff :
    trimLeft text = text ↔ ∀ head ∈ text.head?, isBlank head = false := by
  unfold trimLeft
  rw [List.dropWhile_eq_self_iff]
  cases text with
  | nil => simp
  | cons head tail => simp

theorem trimRight_eq_self_iff :
    trimRight text = text ↔ ∀ last ∈ text.getLast?, isBlank last = false := by
  have reverse_eq : trimRight text = text ↔ trimLeft text.reverse = text.reverse := by
    unfold trimRight trimLeft
    rw [List.reverse_eq_iff]
  rw [reverse_eq, trimLeft_eq_self_iff, List.head?_reverse]

theorem trimRight_isPrefix (text : List Char) : trimRight text <+: text :=
  List.rdropWhile_prefix isBlank text

/-- White space that is gone from the ends of a text is gone for good. -/
theorem trim_trim (text : List Char) : trim (trim text) = trim text := by
  have front : trimLeft (trim text) = trim text := by
    rw [trimLeft_eq_self_iff]
    intro head member
    have isFirst : head ∈ (trimLeft text).head? := by
      obtain ⟨rest, text_eq⟩ := trimRight_isPrefix (trimLeft text)
      rw [← text_eq]
      exact List.mem_head?_append_of_mem_head? member
    exact trimLeft_eq_self_iff.mp (List.dropWhile_idempotent isBlank text) head isFirst
  have back : trimRight (trim text) = trim text :=
    List.rdropWhile_idempotent isBlank (trimLeft text)
  rw [show trim (trim text) = trimRight (trimLeft (trim text)) from rfl, front, back]

theorem mem_of_mem_trimRight {character : Char} (member : character ∈ trimRight text) :
    character ∈ text := by
  have reversed : character ∈ text.reverse.dropWhile isBlank := List.mem_reverse.mp member
  exact List.mem_reverse.mp ((List.dropWhile_sublist _).mem reversed)

/-- White space before a mark is trimmed off the front, and nothing behind it. -/
theorem trimLeft_append_cons (visible : isBlank mark = false) :
    trimLeft (before ++ mark :: after) = trimLeft before ++ mark :: after := by
  unfold trimLeft
  rw [List.dropWhile_append, List.dropWhile_cons_of_neg (by simp [visible])]
  split
  · next blank => rw [List.isEmpty_iff.mp blank, List.nil_append]
  · rfl

/-- White space behind a mark is trimmed off the end, and nothing before it. -/
theorem trimRight_append_cons (visible : isBlank mark = false) :
    trimRight (before ++ mark :: after) = before ++ mark :: trimRight after := by
  have reversed : (before ++ mark :: after).reverse =
      after.reverse ++ mark :: before.reverse := by simp
  have trimmed : trimLeft (after.reverse ++ mark :: before.reverse) =
      trimLeft after.reverse ++ mark :: before.reverse := trimLeft_append_cons visible
  unfold trimRight
  rw [reversed]
  unfold trimLeft at trimmed
  rw [trimmed]
  simp

theorem trim_append_cons (visible : isBlank mark = false) :
    trim (before ++ mark :: after) = trimLeft before ++ mark :: trimRight after := by
  unfold trim
  rw [trimLeft_append_cons visible, trimRight_append_cons visible]

end Provenance.Text
