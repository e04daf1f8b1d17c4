import Mathlib.Data.List.Nodup
import Provenance.Output.Format
import Provenance.Proofs.Data.Flatten
import Provenance.Proofs.Output.RowReader

/-!
Contract: records printed as rows of cells are read back.

Owns:
- `exists_columns`: the columns of some rows, each key once, in the order of their characters;
- `tableCells_eq`: the cells of a table, and what stands in the way of them;
- `delimited_output_reads_back`: the delimited formats decode to the header and the rows, and
  `delimited_output_incomplete`, records of which a table does not hold everything.

Does **not** own: the reader of rows, and how records are flattened.
-/

set_option autoImplicit false

namespace Provenance.Output

open Data (Scalar Value Entries unlessLong)
open Failure (Fault)

namespace Delimited

/-! ## Columns -/

theorem any_sameKey_iff {kept : List String} {name : String} :
    (kept.map Scalar.text).any (·.sameKey (.text name)) = true ↔ name ∈ kept := by
  rw [List.any_map, List.any_eq_true]
  constructor
  · rintro ⟨other, member, same⟩
    obtain rfl := Scalar.text.inj (Data.Scalar.sameKey_text_iff.mp same)
    exact member
  · exact fun member => ⟨name, member, Data.Scalar.sameKey_text_iff.mpr rfl⟩

/-- Names behind others: those that are new follow them, each once. -/
theorem exists_kept (before names : List String) (nodup : before.Nodup) :
    ∃ kept : List String,
      (names.map Scalar.text).foldl
          (fun kept key => if kept.any (·.sameKey key) then kept else kept ++ [key])
          (before.map .text) = kept.map .text ∧ kept.Nodup ∧
        ∀ name, name ∈ kept ↔ name ∈ before ∨ name ∈ names := by
  induction names generalizing before with
  | nil => exact ⟨before, rfl, nodup, fun name => by simp⟩
  | cons first rest inductionHypothesis =>
      rw [List.map_cons, List.foldl_cons]
      by_cases known : first ∈ before
      · rw [if_pos (any_sameKey_iff.mpr known)]
        obtain ⟨kept, folded, distinct, members⟩ := inductionHypothesis before nodup
        refine ⟨kept, folded, distinct, fun name => ?_⟩
        rw [members, List.mem_cons, ← or_assoc]
        have known : name = first → name ∈ before := fun isFirst => isFirst ▸ known
        rw [or_iff_left_of_imp known]
      · rw [if_neg (mt any_sameKey_iff.mp known), ← List.map_singleton, ← List.map_append]
        have apart : (before ++ [first]).Nodup := by
          rw [← List.concat_eq_append]
          exact nodup.concat known
        obtain ⟨kept, folded, distinct, members⟩ := inductionHypothesis (before ++ [first]) apart
        refine ⟨kept, folded, distinct, fun name => ?_⟩
        rw [members, List.mem_append, List.mem_singleton, List.mem_cons, or_assoc]

/-- Keys without repetition are the keys, each once. -/
theorem exists_distinct (names : List String) :
    ∃ kept : List String, distinct (names.map .text) = kept.map .text ∧ kept.Nodup ∧
      ∀ name, name ∈ kept ↔ name ∈ names := by
  obtain ⟨kept, folded, nodup, members⟩ := exists_kept [] names List.nodup_nil
  exact ⟨kept, folded, nodup, fun name => by rw [members, List.mem_nil_iff, false_or]⟩

/-- Texts in the order of their characters. -/
def sorted (names : List String) : List String :=
  names.mergeSort fun left right => left ≤ right

theorem pairwise_sorted {names : List String} (nodup : names.Nodup) :
    (sorted names).Pairwise (· < ·) := by
  have transitive : ∀ first second third : String, decide (first ≤ second) = true →
      decide (second ≤ third) = true → decide (first ≤ third) = true :=
    fun _ _ _ earlier later => decide_eq_true
      (String.le_trans (of_decide_eq_true earlier) (of_decide_eq_true later))
  have total : ∀ left right : String, (decide (left ≤ right) || decide (right ≤ left)) = true := by
    intro left right
    rw [Bool.or_eq_true, decide_eq_true_eq, decide_eq_true_eq]
    exact String.le_total left right
  have ordered := (List.pairwise_mergeSort transitive total names).imp of_decide_eq_true
  exact ordered.imp₂ (fun _ _ => Std.lt_of_le_of_ne)
    ((List.mergeSort_perm names _).nodup_iff.mpr nodup)

/-- The columns of rows under texts: each key once, in the order of their characters. -/
theorem exists_columns {rows : List Entries}
    (areTexts : ∀ row ∈ rows, Entries.keys row = (Entries.texts row).map .text) :
    ∃ header : List String, columns rows = header.map .text ∧ header.Pairwise (· < ·) ∧
      ∀ name, name ∈ header ↔ ∃ row ∈ rows, name ∈ Entries.texts row := by
  have keys_eq : rows.flatMap Entries.keys = (rows.flatMap Entries.texts).map .text := by
    rw [List.map_flatMap]
    exact List.flatMap_congr areTexts
  obtain ⟨kept, isDistinct, nodup, members⟩ := exists_distinct (rows.flatMap Entries.texts)
  refine ⟨sorted kept, ?_, pairwise_sorted nodup, fun name => ?_⟩
  · rw [columns, keys_eq, isDistinct]
    exact (@List.map_mergeSort _ _ _ columnLe Scalar.text kept fun _ _ _ _ => rfl).symm
  · rw [sorted, List.mem_mergeSort, members, List.mem_flatMap]

/-! ## Cells -/

/-- What a cell shows: nothing for what is absent or null. -/
def shownCell : Option Value → String
  | none => ""
  | some (.scalar .null) => ""
  | some value => value.display

/-- The cells of a table: the header, then the cells of each row under its names. -/
def cellsUnder (header : List String) (rows : List Entries) : List (List String) :=
  header :: rows.map fun row => header.map fun name => shownCell (row.get? name)

section Cells

variable [Text.DigitLimit] {rows : List Entries}

/-- Whether some cell of a row has a number of too many digits. -/
def isRowTooLong (header : List String) (row : Entries) : Bool :=
  header.any fun name => (row.get? name).any Value.isTooLong

/-- Whether some cell of a table has a number of too many digits. -/
def areRowsTooLong (header : List String) (rows : List Entries) : Bool :=
  rows.any (isRowTooLong header)

theorem cellText_eq (value : Value) :
    cellText value = unlessLong value.isTooLong (shownCell (some value)) := by
  unfold cellText
  split
  · rfl
  · next notNull =>
      have shown : shownCell (some value) = value.display := by
        unfold shownCell
        split
        · next absent => cases absent
        · next null => exact absurd (Option.some.inj null) notNull
        · next same => rw [Option.some.inj same]
      rw [shown]
      rfl

theorem rowCells_eq (header : List String) (row : Entries) :
    rowCells (header.map .text) row =
      unlessLong (isRowTooLong header row) (header.map fun name => shownCell (row.get? name)) := by
  unfold rowCells
  rw [List.mapM_map]
  refine Data.mapM_unlessLong fun name _ => ?_
  change ((row.get? name).map cellText).getD (.ok "") = _
  cases row.get? name with
  | none => rfl
  | some value => exact cellText_eq value

/-- **The cells of a table are there, unless a number under a column has too many digits.** -/
theorem tableCells_eq (header : List String) (rows : List Entries) :
    tableCells (header.map .text) rows =
      unlessLong (areRowsTooLong header rows) (cellsUnder header rows) := by
  have names : (header.map Scalar.text).mapM (fun column => cellText (.scalar column)) =
      .ok header := by
    rw [List.mapM_map]
    exact List.mapM_pure.trans (congrArg Except.ok (List.map_id header))
  have lines : rows.mapM (rowCells (header.map .text)) = unlessLong (areRowsTooLong header rows)
      (rows.map fun row => header.map fun name => shownCell (row.get? name)) :=
    Data.mapM_unlessLong fun row _ => rowCells_eq header row
  unfold tableCells
  rw [names, lines]
  exact Data.unlessLong_bind_pure (header :: ·)

end Cells

/-- The header of a table: the given fields, or the keys that occur, each once and in the order of
their characters. -/
structure IsHeader (fields : Option (List String)) (rows : List Entries) (header : List String) :
    Prop where
  given : ∀ names, fields = some names → header = names
  ordered : fields = none → header.Pairwise (· < ·)
  complete : fields = none → ∀ name, name ∈ header ↔ ∃ row ∈ rows, name ∈ Entries.texts row

theorem exists_isHeader {rows : List Entries}
    (areTexts : ∀ row ∈ rows, Entries.keys row = (Entries.texts row).map .text)
    (fields : Option (List String)) :
    ∃ header : List String, IsHeader fields rows header ∧
      (fields.map (·.map Scalar.text)).getD (columns rows) = header.map .text := by
  cases fields with
  | some names =>
      refine ⟨names, ⟨fun _ same => Option.some.inj same, fun absent => ?_, fun absent => ?_⟩, rfl⟩ <;>
        cases absent
  | none =>
      obtain ⟨header, columns_eq, ordered, complete⟩ := exists_columns areTexts
      have notGiven : ∀ names, none = some names → header = names :=
        fun _ given => absurd given (Option.some_ne_none _).symm
      exact ⟨header, ⟨notGiven, fun _ => ordered, fun _ => complete⟩, columns_eq⟩

section Written

variable [limit : Text.DigitLimit] {records : List Value}

/-- The rows that a list of records is flattened to. -/
theorem exists_flattened (plain : ∀ record ∈ records, record.IsPlain ∧ record.kind = .dict) :
    ∃ rows, records.mapM (Data.flatten "." (.text "")) =
        unlessLong (records.any Value.hasTooLongList) rows ∧ rows.length = records.length ∧
      ∀ row ∈ rows, Entries.IsFlat (records.any Value.isTooLong = true) row := by
  refine Data.exists_mapM fun record member => ?_
  obtain ⟨isPlain, isDict⟩ := plain record member
  cases isPlain with
  | record distinct values =>
      refine (Data.exists_flatten (.record distinct values)).imp fun row found =>
        found.imp_right (·.weaken fun long => List.any_eq_true.mpr ⟨_, member, long⟩)
  | _ => cases isDict

/-- Where no number in the records has too many digits, every list in them has a text. -/
theorem any_hasTooLongList_eq_false
    (plain : ∀ record ∈ records, record.IsPlain ∧ record.kind = .dict)
    (short : records.any Value.isTooLong = false) :
    records.any Value.hasTooLongList = false :=
  List.any_eq_false.mpr fun record member long => List.any_eq_false.mp short record member
    ((plain record member).1.isTooLong_of_hasTooLongList long)

/-- Where no number in the records has too many digits, none in their rows has. -/
theorem areRowsTooLong_eq_false {rows : List Entries} (short : records.any Value.isTooLong = false)
    (flat : ∀ row ∈ rows, Entries.IsFlat (records.any Value.isTooLong = true) row)
    (header : List String) : areRowsTooLong header rows = false := by
  refine List.any_eq_false.mpr fun row member long => ?_
  obtain ⟨name, -, isLong⟩ := List.any_eq_true.mp long
  cases found : row.get? name with
  | none =>
      rw [found] at isLong
      cases isLong
  | some value =>
      rw [found] at isLong
      exact Bool.false_ne_true (short.symm.trans ((flat row member).of_get? found isLong))

/-- What is written of rows that are there. -/
theorem write_of_rows {delimiter : Char} {fields : Option (List Scalar)} {rows : List Entries}
    {header : List String} (flattened : records.mapM (Data.flatten "." (.text "")) = .ok rows)
    (filled : rows ≠ []) (header_eq : fields.getD (columns rows) = header.map .text) :
    write delimiter fields records =
      unlessLong (areRowsTooLong header rows)
        (some (writeRows delimiter (cellsUnder header rows))) := by
  unfold write
  rw [flattened]
  change (if rows.isEmpty then _ else _) = _
  rw [if_neg (by rwa [List.isEmpty_iff]), header_eq, tableCells_eq]
  exact Data.unlessLong_bind_pure fun cells => some (writeRows delimiter cells)

/-- A number of too many digits stops the table of its record. -/
theorem write_of_long {number : Int} (name : String) (isLong : Text.isTooLong number = true)
    (delimiter : Char) : write delimiter none [.record [(name, .int number)]] =
      .error .tooLongToWrite := by
  have flattened : [Value.record [(name, .int number)]].mapM (Data.flatten "." (.text "")) =
      .ok [[(.text name, .int number)]] := rfl
  obtain ⟨header, isHeader, header_eq⟩ := @exists_isHeader [[(.text name, .int number)]]
    (fun row member => by rw [List.mem_singleton.mp member]; rfl) none
  have isThere : name ∈ header :=
    (isHeader.complete rfl name).mpr ⟨_, List.mem_singleton_self _, List.mem_singleton_self _⟩
  have found : Entries.get? [(.text name, .int number)] name = some (.int number) :=
    @Entries.get?_named name _ [(name, .int number)] (by simp) List.mem_cons_self
  have long : areRowsTooLong header [[(.text name, .int number)]] = true := by
    refine List.any_eq_true.mpr
      ⟨_, List.mem_singleton_self _, List.any_eq_true.mpr ⟨name, isThere, ?_⟩⟩
    rw [found]
    exact isLong
  exact (write_of_rows flattened (List.cons_ne_nil _ _) header_eq).trans
    (Data.unlessLong_of_long long)

end Written
end Delimited

open Delimited

/-- How a table is printed in a format: it is read back as the header and the rows. -/
def IsTableOf (delimiter : Char) (header : List String) (rows : List Entries)
    (printed : Except Fault (List String)) : Prop :=
  ∃ text, printed = .ok [text] ∧ readRows delimiter text = some (cellsUnder header rows)

/-- **The delimited formats decode to the records that were printed.**

A list of plain dictionaries is printed as one text.  A reader of rows finds in it a header and one
row a record, in order and as wide as the header, with what each flattened record has under each name;
a cell is empty where there is nothing or null.  Without given fields the header is every key that
occurs, once, in the order of their characters.

All of this holds under every limit on digits, and of all records where there is none.  A number of
more digits has no text: one in a list stops the flattening, one under a column stops the printing, and
there is nothing else that either of them can fail for. -/
theorem delimited_output_reads_back [limit : Text.DigitLimit] {records : List Value}
    (given : records ≠ []) (plain : ∀ record ∈ records, record.IsPlain ∧ record.kind = .dict)
    (fields : Option (List String)) {format : Format} {delimiter : Char}
    (delimits : (format, delimiter) ∈ [(Format.csv, ','), (Format.tsv, '\t')]) :
    (limit.most? = none ∨ records.any Value.isTooLong = false →
      ∃ rows header,
        records.mapM (Data.flatten "." (.text "")) = .ok rows ∧ IsHeader fields rows header ∧
          IsTableOf delimiter header rows (format.chunks records (fields.map (·.map .text)))) ∧
      (records.any Value.hasTooLongList = false →
        ∃ rows header,
          records.mapM (Data.flatten "." (.text "")) = .ok rows ∧ IsHeader fields rows header ∧
            if areRowsTooLong header rows then
              format.chunks records (fields.map (·.map .text)) = .error .tooLongToWrite
            else
              IsTableOf delimiter header rows (format.chunks records (fields.map (·.map .text)))) ∧
        (records.any Value.hasTooLongList = true →
          format.chunks records (fields.map (·.map .text)) = .error .tooLongToWrite) := by
  have printed : IsDelimiter delimiter ∧ format.chunks records (fields.map (·.map .text)) =
      (write delimiter (fields.map (·.map .text)) records).map Option.toList := by
    rcases List.mem_cons.mp delimits with isComma | others
    · obtain ⟨rfl, rfl⟩ := Prod.mk.inj isComma
      exact ⟨⟨by decide, by decide, by decide⟩, rfl⟩
    · obtain ⟨rfl, rfl⟩ := Prod.mk.inj (List.mem_singleton.mp others)
      exact ⟨⟨by decide, by decide, by decide⟩, rfl⟩
  obtain ⟨rows, flattened, length_eq, flat⟩ := exists_flattened plain
  obtain ⟨header, isHeader, header_eq⟩ :=
    exists_isHeader (fun row member => (flat row member).keys_eq) fields
  have filled : rows ≠ [] := by
    rw [← List.length_pos_iff, length_eq, List.length_pos_iff]
    exact given
  -- Where every list has a text, the rows are there, and only a column can stop them.
  have shows (noList : records.any Value.hasTooLongList = false) :
      records.mapM (Data.flatten "." (.text "")) = .ok rows ∧
        format.chunks records (fields.map (·.map .text)) =
          unlessLong (areRowsTooLong header rows)
            [writeRows delimiter (cellsUnder header rows)] := by
    have isThere := flattened.trans (Data.unlessLong_of_short noList)
    refine ⟨isThere, ?_⟩
    rw [printed.2, write_of_rows isThere filled header_eq, Data.unlessLong_map, Option.toList_some]
  have reads := readRows_writeRows printed.1 (cellsUnder header rows)
  refine ⟨fun allowed => ?_, fun noList => ?_, fun long => ?_⟩
  · have short : records.any Value.isTooLong = false :=
      allowed.elim (fun unlimited => Value.any_isTooLong_of_unlimited unlimited records) id
    have noList := any_hasTooLongList_eq_false plain short
    refine ⟨rows, header, (shows noList).1, isHeader, _, (shows noList).2.trans ?_, reads⟩
    exact Data.unlessLong_of_short (areRowsTooLong_eq_false short flat header)
  · refine ⟨rows, header, (shows noList).1, isHeader, ?_⟩
    rw [(shows noList).2]
    split
    · next long => exact Data.unlessLong_of_long long
    · next short => exact ⟨_, Data.unlessLong_of_short (Bool.eq_false_iff.mpr short), reads⟩
  · have stops := flattened.trans (Data.unlessLong_of_long long)
    rw [printed.2, write, stops]
    rfl

/-- Two records that share no key; their cells hold delimiters, quotes and line ends. -/
def unlikeRecords : List Value :=
  [.record [("b", .record [("c", .text "x,\"y\"\r\n"), ("n", .null)])],
    .record [("a", .list [.text "1", .bool true])]]

/-- Their table, with a column that neither has. -/
theorem delimited_output_reads_back_unlike :
    ∃ text, Format.csv.chunks unlikeRecords (some [.text "b.c", .text "a", .text "z"]) =
        .ok [text] ∧
      readRows ',' text =
        some [["b.c", "a", "z"], ["x,\"y\"\r\n", "", ""], ["", "1, True", ""]] := by
  have plain : ∀ record ∈ unlikeRecords, record.IsPlain ∧ record.kind = .dict := by
    refine List.forall_mem_cons.mpr ⟨⟨?_, rfl⟩, List.forall_mem_singleton.mpr ⟨?_, rfl⟩⟩
    · refine .record (by decide) (List.forall_mem_singleton.mpr ?_)
      exact .record (by decide) (List.forall_mem_cons.mpr
        ⟨.text _, List.forall_mem_singleton.mpr .null⟩)
    · refine .record (by decide) (List.forall_mem_singleton.mpr (.list ?_))
      exact List.forall_mem_cons.mpr ⟨.text _, List.forall_mem_singleton.mpr (.bool true)⟩
  obtain ⟨rows, header, flattened, isHeader, isTable⟩ :=
    (delimited_output_reads_back (List.cons_ne_nil _ _) plain (some ["b.c", "a", "z"])
      List.mem_cons_self).1 (.inr (by decide))
  obtain rfl := isHeader.given _ rfl
  obtain rfl := Except.ok.inj flattened
  exact isTable

/-- A record of one number that is too long where no other limit is set. -/
def longCell : Value :=
  .record [("n", .int (Data.leastBeyond 4300))]

/-- A record of nothing and of a text. -/
def nullCell : Value :=
  .record [("a", .null), ("b", .text "x")]

/-- Under the usual limit there is no table of the first record, plain as it is.  In the table of the
second one the cell of what is null does not hold its text: it is empty, as if the record lacked it. -/
theorem delimited_output_incomplete :
    (longCell.IsPlain ∧ longCell.kind = .dict ∧
      Format.csv.chunks [longCell] none = .error .tooLongToWrite ∧
      Format.tsv.chunks [longCell] none = .error .tooLongToWrite) ∧
      nullCell.IsPlain ∧ nullCell.kind = .dict ∧ Value.null.display = "None" ∧
        ∃ text, Format.csv.chunks [nullCell] (some [.text "a", .text "b"]) = .ok [text] ∧
          readRows ',' text = some [["a", "b"], ["", "x"]] := by
  constructor
  · have refused := write_of_long "n" (Data.isTooLong_leastBeyond rfl)
    refine ⟨.record (by decide) (List.forall_mem_singleton.mpr (.int _)), rfl, ?_, ?_⟩
    · exact congrArg (Except.map Option.toList) (refused ',')
    · exact congrArg (Except.map Option.toList) (refused '\t')
  · have plain : nullCell.IsPlain := .record (by decide)
      (List.forall_mem_cons.mpr ⟨.null, List.forall_mem_singleton.mpr (.text "x")⟩)
    have written := @write_of_rows _ [nullCell] ',' (some [.text "a", .text "b"])
      [[(.text "a", .null), (.text "b", .text "x")]] ["a", "b"] rfl (List.cons_ne_nil _ _) rfl
    refine ⟨plain, rfl, rfl, _, congrArg (Except.map Option.toList)
      (written.trans (Data.unlessLong_of_short rfl)), ?_⟩
    exact readRows_writeRows ⟨by decide, by decide, by decide⟩ _

end Provenance.Output
