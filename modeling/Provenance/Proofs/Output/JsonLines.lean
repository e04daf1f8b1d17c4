import Mathlib.Data.List.Forall2
import Provenance.Proofs.Json.RoundTrip
import Provenance.Proofs.Output.Yields
import Provenance.Record

/-!
Contract: records printed as JSON are read back.

Owns:
- `IsLineOf`, a single line that is read as a value;
- `mapM_write`: several values are all written, or one of them cannot be;
- `lines_of_isPlain`: how far the line format comes;
- `isPlain_toValue`: what a record is printed from is plain;
- `json_output_reads_back`: both JSON formats decode to the records that were printed, and
  `json_output_refused_long`, a record that neither has a text for.

Does **not** own: the texts of single values, and the formats of rows.
-/

set_option autoImplicit false

namespace Provenance.Output

open Data (Scalar Value)
open Json (Style)

variable {records : List Value} {value : Value}

section Lines

variable [limit : Text.DigitLimit]

/-- A line is a text without control characters; it is the line of a value that it is read as. -/
structure IsLineOf (line : String) (value : Value) : Prop where
  visible : ∀ character ∈ line.toList, 32 ≤ character.toNat
  reads : Json.read line = .ok value

theorem isLineOf_draft (plain : value.IsPlain) (short : value.isTooLong = false) :
    IsLineOf (String.ofList (Json.draft .line value).text) value where
  visible := by
    intro character member
    rw [String.toList_ofList] at member
    rcases ((Json.writes_of_isPlain .line plain short 0).admitted character member).1 with
      visible | ⟨-, indented⟩
    · exact visible
    · cases indented
  reads := Json.read_draft plain short

/-- Plain values are all written, or a number in one of them has too many digits. -/
theorem mapM_write (style : Style) (plain : ∀ record ∈ records, record.IsPlain) :
    records.mapM (Json.write style) =
      Data.unlessLong (records.any Value.isTooLong)
        (records.map fun record => String.ofList (Json.draft style record).text) :=
  Data.mapM_unlessLong fun record member => Json.write_eq (plain record member)

/-- Plain values have a line each, up to the first with a number of too many digits. -/
theorem lines_of_isPlain (plain : ∀ record ∈ records, record.IsPlain) :
    List.Forall₂ IsLineOf (Yielded.lines records).texts
        (records.takeWhile fun record => !record.isTooLong) ∧
      (Yielded.lines records).stopped = Json.tooLongFault (records.any Value.isTooLong) := by
  induction records with
  | nil => exact ⟨.nil, rfl⟩
  | cons record rest inductionHypothesis =>
      obtain ⟨first, others⟩ := List.forall_mem_cons.mp plain
      obtain ⟨areLines, stops⟩ := inductionHypothesis others
      rw [Yielded.lines, Json.write_eq first, List.takeWhile_cons, List.any_cons]
      cases short : record.isTooLong with
      | true => exact ⟨.nil, rfl⟩
      | false => exact ⟨.cons (isLineOf_draft first short) areLines, stops⟩

theorem isTooLong_texts (values : List String) : (Value.texts values).isTooLong = false := by
  rw [Value.texts, Value.isTooLong, Value.areItemsTooLong_eq, List.any_map]
  exact List.any_eq_false.mpr fun _ _ => Bool.false_ne_true

theorem isTooLong_toValue (record : Record) : record.toValue.isTooLong = false := by
  have entries := Value.areEntriesTooLong_named record.fields
  simp only [Record.fields, List.any_cons, List.any_nil, isTooLong_texts] at entries
  exact entries

end Lines

theorem isPlain_texts (values : List String) : (Value.texts values).IsPlain := by
  refine .list fun item member => ?_
  obtain ⟨text, -, rfl⟩ := List.mem_map.mp member
  exact .text text

/-- What a record is printed from is plain. -/
theorem isPlain_toValue (record : Record) : record.toValue.IsPlain := by
  have distinct : (record.fields.map Prod.fst).Nodup := by
    change ["base_dir", "rel_dir", "remote_url", "git_url", "hash", "short_hash", "branch", "tags",
      "timestamp"].Nodup
    decide
  refine .record distinct ?_
  simp only [Record.fields, List.forall_mem_cons]
  exact ⟨.text _, .text _, .text _, .text _, .text _, .text _, isPlain_texts _, isPlain_texts _,
    .text _, fun _ member => absurd member List.not_mem_nil⟩

/-- **JSON output decodes to the records that were printed.**

For plain records the line format makes one line a record, in order, each without control
characters and read as its record; the other JSON format makes one text that is read as the list of
them.  The order of keys is part of the values, and the line of a version-control record is always such
a line.

All of this holds under every limit on digits, and of all records where there is none.  A number of
more digits has no text: the line format has then made the lines of the records before it, the other
one has made nothing, and there is nothing else that either of them can fail for. -/
theorem json_output_reads_back [limit : Text.DigitLimit]
    (plain : ∀ record ∈ records, record.IsPlain) (fields : Option (List Scalar)) :
    (limit.most? = none ∨ records.any Value.isTooLong = false →
        (∃ lines, Format.jsonl.chunks records fields = .ok lines ∧
            List.Forall₂ IsLineOf lines records) ∧
          ∃ text, Format.json.chunks records fields = .ok [text] ∧
            Json.read text = .ok (.list records)) ∧
      (records.any Value.isTooLong = true →
        (Format.jsonl.yields records fields).stopped = some .tooLongToWrite ∧
          List.Forall₂ IsLineOf (Format.jsonl.yields records fields).texts
            (records.takeWhile fun record => !record.isTooLong) ∧
          Format.json.chunks records fields = .error .tooLongToWrite) ∧
        ∀ record : Record, Json.write .line record.toValue = .ok record.jsonLine ∧
          IsLineOf record.jsonLine record.toValue := by
  have whole : (Value.list records).IsPlain := .list plain
  have isTooLong_list : (Value.list records).isTooLong = records.any Value.isTooLong :=
    Value.areItemsTooLong_eq records
  have printed : Format.json.chunks records fields =
      Data.unlessLong (records.any Value.isTooLong)
        [String.ofList (Json.draft .pretty (.list records)).text] := by
    rw [Format.chunks, Json.write_eq whole, isTooLong_list, Data.unlessLong_map]
  obtain ⟨areLines, stops⟩ := lines_of_isPlain plain
  refine ⟨fun allowed => ?_, fun long => ?_, fun record => ?_⟩
  · have short : records.any Value.isTooLong = false :=
      allowed.elim (fun unlimited => Value.any_isTooLong_of_unlimited unlimited records) id
    refine ⟨⟨_, (mapM_write .line plain).trans (Data.unlessLong_of_short short), ?_⟩,
      _, printed.trans (Data.unlessLong_of_short short),
      Json.read_draft whole (isTooLong_list.trans short)⟩
    rw [List.forall₂_map_left_iff, List.forall₂_same]
    exact fun record member => isLineOf_draft (plain record member)
      (Bool.eq_false_iff.mpr (List.any_eq_false.mp short record member))
  · rw [long] at stops
    exact ⟨stops, areLines, printed.trans (Data.unlessLong_of_long long)⟩
  · have short := isTooLong_toValue record
    exact ⟨(Json.write_eq (isPlain_toValue record)).trans (Data.unlessLong_of_short short),
      isLineOf_draft (isPlain_toValue record) short⟩

/-- A record with marks, control characters and characters beyond ASCII in it. -/
def markedRecord : Value :=
  .record [("\"é\\", .text "a\nb\u007f😀"), ("n", .list [.int (-7), .null])]

theorem isPlain_markedRecord : markedRecord.IsPlain := by
  refine .record (by decide) ?_
  simp only [List.forall_mem_cons]
  refine ⟨.text _, .list ?_, fun _ member => absurd member List.not_mem_nil⟩
  simp only [List.forall_mem_cons]
  exact ⟨.int _, .null, fun _ member => absurd member List.not_mem_nil⟩

/-- Such a record comes back. -/
theorem json_output_reads_back_marked :
    (∃ lines, Format.jsonl.chunks [markedRecord] none = .ok lines ∧
      List.Forall₂ IsLineOf lines [markedRecord]) ∧
      ∃ text, Format.json.chunks [markedRecord] none = .ok [text] ∧
        Json.read text = .ok (.list [markedRecord]) := by
  have number : Text.isTooLong (-7) = false :=
    Data.isTooLong_eq_false 1 (by decide) (by decide)
  have short : [markedRecord].any Value.isTooLong = false := by
    simp only [List.any_cons, List.any_nil, markedRecord, Value.record, List.map_cons, List.map_nil,
      Value.isTooLong, Value.areEntriesTooLong, Value.areItemsTooLong, Data.Scalar.isTooLong,
      number, Bool.or_self]
  exact (json_output_reads_back (List.forall_mem_singleton.mpr isPlain_markedRecord) none).1
    (.inr short)

/-- A record of one number that is too long where no other limit is set. -/
def longRecord : Value :=
  .record [("n", .int (Data.leastBeyond 4300))]

/-- It is plain, and under the usual limit neither format has a text for it. -/
theorem json_output_refused_long :
    longRecord.IsPlain ∧ Format.jsonl.chunks [longRecord] none = .error .tooLongToWrite ∧
      Format.json.chunks [longRecord] none = .error .tooLongToWrite := by
  have plain : longRecord.IsPlain :=
    .record (by decide) (List.forall_mem_singleton.mpr (.int _))
  have plains : ∀ record ∈ [longRecord], record.IsPlain := List.forall_mem_singleton.mpr plain
  have long : [longRecord].any Value.isTooLong = true := by
    simp only [List.any_cons, longRecord, Value.record, List.map_cons, List.map_nil,
      Value.isTooLong, Value.areEntriesTooLong, Data.Scalar.isTooLong,
      Data.isTooLong_leastBeyond rfl, Bool.or_true, Bool.true_or]
  refine ⟨plain, (mapM_write .line plains).trans (Data.unlessLong_of_long long), ?_⟩
  rw [Format.chunks, Json.write_eq (.list plains), Value.isTooLong, Value.areItemsTooLong_eq, long]
  rfl

end Provenance.Output
