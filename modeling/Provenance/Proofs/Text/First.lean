import Mathlib.Data.List.Infix
import Provenance.Text.Scan

/-!
Contract: the first place of a pattern, the first of a mark, and the end of a text.

Owns:
- `cutFirst?_eq_none_iff` and `eq_append_of_cutFirst?`: where a pattern is found;
- what `afterFirst`, `replaceFirst` and `dropEnding` leave, and how long it is;
- which patterns cannot lie across a mark.

Does **not** own: cutting at the last mark or at all of them.
-/

set_option autoImplicit false

namespace Provenance.Text

variable {mark new : Char} {pattern ending text before after : List Char}

/-! ## Patterns across a mark -/

theorem infix_of_infix_append_cons (absent : mark ∉ pattern)
    (inside : pattern <:+: before ++ mark :: after) :
    pattern <:+: before ∨ pattern <:+: after := by
  induction before with
  | nil =>
      rcases List.infix_cons_iff.mp inside with starts | later
      · rcases List.prefix_cons_iff.mp starts with rfl | ⟨rest, rfl, -⟩
        · exact .inl List.nil_infix
        · exact absurd List.mem_cons_self absent
      · exact .inr later
  | cons head tail inductionHypothesis =>
      rcases List.infix_cons_iff.mp inside with starts | later
      · -- A pattern that begins here and is longer than what stands before the mark holds the mark.
        have front : (head :: tail) ++ [mark] <+: (head :: tail) ++ mark :: after :=
          ⟨after, by rw [List.append_assoc]; rfl⟩
        rcases List.prefix_or_prefix_of_prefix starts front with short | long
        · rcases List.prefix_concat_iff.mp short with rfl | within
          · exact absurd (List.mem_append_right _ List.mem_cons_self) absent
          · exact .inl within.isInfix
        · exact absurd (long.subset (List.mem_append_right _ List.mem_cons_self)) absent
      · rcases inductionHypothesis later with within | behind
        · exact .inl (List.infix_cons within)
        · exact .inr behind

/-- A pattern that begins with a mark lies where the only mark stands. -/
theorem prefix_of_infix_append_cons {rest : List Char} (first : mark ∉ before) (last : mark ∉ after)
    (inside : mark :: rest <:+: before ++ mark :: after) : rest <+: after := by
  induction before with
  | nil =>
      rcases List.infix_cons_iff.mp inside with starts | later
      · exact (List.cons_prefix_cons.mp starts).2
      · exact absurd (later.subset List.mem_cons_self) last
  | cons head tail inductionHypothesis =>
      rw [List.mem_cons, not_or] at first
      rcases List.infix_cons_iff.mp inside with starts | later
      · exact absurd (List.cons_prefix_cons.mp starts).1 first.1
      · exact inductionHypothesis first.2 later

theorem suffix_of_suffix_append_cons (absent : mark ∉ ending)
    (ends : ending <:+ before ++ mark :: after) : ending <:+ after := by
  rcases List.suffix_or_suffix_of_suffix ends (List.suffix_append before (mark :: after)) with
    short | long
  · rcases List.suffix_cons_iff.mp short with rfl | within
    · exact absurd List.mem_cons_self absent
    · exact within
  · exact absurd (long.subset List.mem_cons_self) absent

/-! ## The first place of a pattern -/

theorem cutFirst?_eq_none_iff : cutFirst? pattern text = none ↔ ¬ pattern <:+: text := by
  induction text with
  | nil => cases pattern <;> simp [cutFirst?]
  | cons head tail inductionHypothesis =>
      rw [cutFirst?, List.infix_cons_iff]
      by_cases starts : pattern <+: head :: tail
      · simp [List.isPrefixOf_iff_prefix, starts]
      · simp [List.isPrefixOf_iff_prefix, starts, inductionHypothesis]

theorem eq_append_of_cutFirst? (cut : cutFirst? pattern text = some (before, after)) :
    text = before ++ (pattern ++ after) := by
  induction text generalizing before with
  | nil =>
      cases pattern with
      | nil =>
          obtain ⟨rfl, rfl⟩ := Prod.mk.inj (Option.some.inj cut)
          rfl
      | cons head tail => cases cut
  | cons head tail inductionHypothesis =>
      rw [cutFirst?] at cut
      split at cut
      · next starts =>
          obtain ⟨rfl, rfl⟩ := Prod.mk.inj (Option.some.inj cut)
          exact List.prefix_append_drop (List.isPrefixOf_iff_prefix.mp starts)
      · obtain ⟨⟨front, rest⟩, cutTail, pair⟩ := Option.map_eq_some_iff.mp cut
        obtain ⟨rfl, rfl⟩ := Prod.mk.inj pair
        rw [inductionHypothesis cutTail]
        rfl

theorem afterFirst_eq_self (absent : ¬ pattern <:+: text) : afterFirst pattern text = text := by
  rw [afterFirst, cutFirst?_eq_none_iff.mpr absent]

/-- What follows a pattern ends the text that the pattern is in. -/
theorem exists_eq_append_afterFirst (inside : pattern <:+: text) :
    ∃ before, text = before ++ (pattern ++ afterFirst pattern text) := by
  cases cut : cutFirst? pattern text with
  | none => exact absurd inside (cutFirst?_eq_none_iff.mp cut)
  | some pieces =>
      refine ⟨pieces.1, ?_⟩
      rw [afterFirst, cut]
      exact eq_append_of_cutFirst? cut

theorem afterFirst_suffix (pattern text : List Char) : afterFirst pattern text <:+ text := by
  by_cases inside : pattern <:+: text
  · obtain ⟨before, text_eq⟩ := exists_eq_append_afterFirst inside
    exact ⟨before ++ pattern, by rw [List.append_assoc, ← text_eq]⟩
  · rw [afterFirst_eq_self inside]

theorem length_afterFirst_lt (given : pattern ≠ []) (inside : pattern <:+: text) :
    (afterFirst pattern text).length < text.length := by
  obtain ⟨before, text_eq⟩ := exists_eq_append_afterFirst inside
  have lengths := congrArg List.length text_eq
  have long := List.length_pos_of_ne_nil given
  rw [List.length_append, List.length_append] at lengths
  omega

/-! ## The first mark -/

theorem replaceFirst_of_not_mem (absent : mark ∉ text) : replaceFirst mark new text = text := by
  induction text with
  | nil => rfl
  | cons head tail inductionHypothesis =>
      rw [List.mem_cons, not_or] at absent
      rw [replaceFirst, if_neg (Ne.symm absent.1), inductionHypothesis absent.2]

/-- The mark that is replaced is the one that none stands before. -/
theorem replaceFirst_append (absent : mark ∉ before) :
    replaceFirst mark new (before ++ mark :: after) = before ++ new :: after := by
  induction before with
  | nil => rw [List.nil_append, replaceFirst, if_pos rfl, List.nil_append]
  | cons head tail inductionHypothesis =>
      rw [List.mem_cons, not_or] at absent
      rw [List.cons_append, replaceFirst, if_neg (Ne.symm absent.1),
        inductionHypothesis absent.2, List.cons_append]

theorem length_replaceFirst (mark new : Char) (text : List Char) :
    (replaceFirst mark new text).length = text.length := by
  by_cases isThere : mark ∈ text
  · obtain ⟨before, after, rfl, first⟩ := List.eq_append_cons_of_mem isThere
    rw [replaceFirst_append first]
    simp
  · rw [replaceFirst_of_not_mem isThere]

/-- A mark that is replaced by another character is one mark less. -/
theorem count_replaceFirst (different : new ≠ mark) :
    (replaceFirst mark new text).count mark = text.count mark - 1 := by
  by_cases isThere : mark ∈ text
  · obtain ⟨before, after, rfl, first⟩ := List.eq_append_cons_of_mem isThere
    rw [replaceFirst_append first, List.count_append, List.count_append,
      List.count_cons_of_ne different, List.count_cons_self]
    omega
  · rw [replaceFirst_of_not_mem isThere, List.count_eq_zero_of_not_mem isThere]

/-! ## The end -/

theorem dropEnding_append (ending text : List Char) : dropEnding ending (text ++ ending) = text := by
  have ends : ending.isSuffixOf (text ++ ending) = true :=
    List.isSuffixOf_iff_suffix.mpr (List.suffix_append text ending)
  rw [dropEnding, if_pos ends, List.length_append, Nat.add_sub_cancel, List.take_left]

theorem dropEnding_of_not_suffix (other : ¬ ending <:+ text) : dropEnding ending text = text := by
  rw [dropEnding, if_neg fun ends => other (List.isSuffixOf_iff_suffix.mp ends)]

theorem dropEnding_isPrefix (ending text : List Char) : dropEnding ending text <+: text := by
  rw [dropEnding]
  split
  · exact List.take_prefix _ text
  · exact List.prefix_refl text

end Provenance.Text
