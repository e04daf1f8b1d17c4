import Provenance.Proofs.Json.Collections

/-!
Contract: reading JSON undoes writing it.

Owns:
- `writes_of_isPlain`: a plain value is read from what it is written as, at every depth;
- `draftAt_fault`: a number of too many digits stops the writing of one, and nothing else does;
- `write_eq` and `read_draft`: the two together, for whole texts in every style.

Does **not** own: floating-point numbers, and keys that are no texts.
-/

set_option autoImplicit false

namespace Provenance.Json

open Data (Scalar Value Entries)
open Failure (Fault)

variable {style : Style} {value : Value}

/-! ## What stops the writing -/

theorem Draft.andThen_fault (first second : Draft) :
    (first.andThen second).fault = first.fault.or second.fault := by
  rw [andThen]
  cases stops : first.fault with
  | none => rfl
  | some fault => exact stops

/-- The one thing that stops the writing of a plain value. -/
def tooLongFault (isTooLong : Bool) : Option Fault :=
  if isTooLong then some .tooLongToWrite else none

theorem or_tooLongFault (first second : Bool) :
    (tooLongFault first).or (tooLongFault second) = tooLongFault (first || second) := by
  cases first <;> rfl

theorem enclose_fault (depth : Nat) (opening closing : Char) (parts : Draft) :
    (enclose style depth opening closing parts).fault = parts.fault := by
  rw [enclose, Draft.andThen_fault, Draft.andThen_fault]
  exact Option.or_none

section Plain

variable [Text.DigitLimit]

/-! ## Plain values -/

/-- **A plain value is written as a whole, in characters of the style, and read from what it is
written as**, where no number in it has too many digits. -/
theorem writes_of_isPlain (style : Style) (plain : value.IsPlain)
    (short : value.isTooLong = false) (depth : Nat) :
    (draftAt style depth value).Writes style value := by
  induction plain generalizing depth with
  | null => exact writes_null
  | bool value => exact writes_bool value
  | int value => exact writes_int short
  | text value => exact writes_text value
  | list _ inductionHypothesis =>
      rw [Value.isTooLong, Value.areItemsTooLong_eq, List.any_eq_false] at short
      exact writes_list fun item member depth =>
        inductionHypothesis item member (Bool.eq_false_iff.mpr (short item member)) depth
  | @record entries distinct _ inductionHypothesis =>
      have short : Value.areEntriesTooLong (Entries.named entries) = false := short
      rw [Value.areEntriesTooLong_named, List.any_eq_false] at short
      exact writes_record distinct fun entry member depth =>
        inductionHypothesis entry member (Bool.eq_false_iff.mpr (short entry member)) depth

theorem draftItems_fault {items : List Value} {depth : Nat}
    (each : ∀ item ∈ items, (draftAt style depth item).fault = tooLongFault item.isTooLong) :
    (draftItems style depth items).fault = tooLongFault (items.any Value.isTooLong) := by
  induction items with
  | nil => rfl
  | cons item rest inductionHypothesis =>
      obtain ⟨first, others⟩ := List.forall_mem_cons.mp each
      rw [draftItems, Draft.andThen_fault, Draft.andThen_fault, first, inductionHypothesis others,
        List.any_cons, ← or_tooLongFault]
      rfl

theorem draftEntries_fault {entries : List (String × Value)} {depth : Nat}
    (each : ∀ entry ∈ entries,
      (draftAt style depth entry.2).fault = tooLongFault entry.2.isTooLong) :
    (draftEntries style depth (Entries.named entries)).fault =
      tooLongFault (entries.any fun entry => entry.2.isTooLong) := by
  induction entries with
  | nil => rfl
  | cons entry rest inductionHypothesis =>
      obtain ⟨first, others⟩ := List.forall_mem_cons.mp each
      have unfolded : draftEntries style depth (Entries.named (entry :: rest)) =
        ((writeKey style depth false (.text entry.1)).andThen
          (draftAt style depth entry.2)).andThen
            (draftEntries style depth (Entries.named rest)) := rfl
      rw [unfolded, Draft.andThen_fault, Draft.andThen_fault, first, inductionHypothesis others,
        List.any_cons, ← or_tooLongFault]
      rfl

/-- The writing of a plain value is stopped by a number of too many digits, and by nothing else. -/
theorem draftAt_fault (style : Style) (plain : value.IsPlain) (depth : Nat) :
    (draftAt style depth value).fault = tooLongFault value.isTooLong := by
  induction plain generalizing depth with
  | null => rfl
  | bool value => cases value <;> rfl
  | int value =>
      rw [draftAt, writeScalar, wholeText, Value.isTooLong, Data.Scalar.isTooLong, tooLongFault]
      split <;> rfl
  | text value => rfl
  | @list items _ inductionHypothesis =>
      rw [Value.isTooLong, Value.areItemsTooLong_eq]
      cases items with
      | nil => rfl
      | cons item rest =>
          obtain ⟨first, others⟩ := List.forall_mem_cons.mp inductionHypothesis
          rw [draftAt, enclose_fault, Draft.andThen_fault, first,
            draftItems_fault fun item member => others item member _, or_tooLongFault,
            List.any_cons]
  | @record entries _ _ inductionHypothesis =>
      have isTooLong_eq : (Value.record entries).isTooLong =
          entries.any fun entry => entry.2.isTooLong := Value.areEntriesTooLong_named entries
      rw [isTooLong_eq]
      cases entries with
      | nil => rfl
      | cons entry rest =>
          obtain ⟨first, others⟩ := List.forall_mem_cons.mp inductionHypothesis
          have unfolded : draftAt style depth (.record (entry :: rest)) =
            enclose style depth '\x7b' '\x7d'
              (((writeKey style (depth + 1) true (.text entry.1)).andThen
                (draftAt style (depth + 1) entry.2)).andThen
                  (draftEntries style (depth + 1) (Entries.named rest))) := rfl
          rw [unfolded, enclose_fault, Draft.andThen_fault, Draft.andThen_fault, first,
            draftEntries_fault fun entry member => others entry member _, List.any_cons,
            ← or_tooLongFault]
          rfl

/-! ## Whole texts -/

/-- A plain value is written, or one of its numbers has too many digits. -/
theorem write_eq (plain : value.IsPlain) :
    write style value =
      Data.unlessLong value.isTooLong (String.ofList (draft style value).text) := by
  have stops := draftAt_fault style plain 0
  rw [write, Draft.result, draft, stops, tooLongFault]
  cases value.isTooLong <;> rfl

/-- **Reading undoes writing**, in every style. -/
theorem read_draft (plain : value.IsPlain) (short : value.isTooLong = false) :
    read (String.ofList (draft style value).text) = .ok value := by
  have denotes := (writes_of_isPlain style plain short 0).denotes
  obtain ⟨first, more, text_eq, visible, -, noMark⟩ := denotes.begins
  have whole := denotes.reads (2 * (draftAt style 0 value).text.length + 2) [] (by omega)
    fun _ member => by cases member
  have reads : readCharacters (draftAt style 0 value).text = .ok value := by
    rw [List.append_nil] at whole
    rw [text_eq] at whole ⊢
    rw [readCharacters]
    simp only [if_neg noMark]
    rw [readCharacters.readWhole, skipSpace_cons visible, whole]
    rfl
  rw [read, String.toList_ofList, draft, reads]

end Plain
end Provenance.Json
