import Provenance.Output.Delimited
import Provenance.Proofs.Text.Cut

/-!
Contract: a reader of delimited rows, and that it undoes the writer.

Owns:
- `Reader`, a state machine over the characters of a table, and `readRows`, its whole run;
- `Reader.run_writeCell` to `Reader.run_flatMap_writeRow`: what is read of a cell, a row and a table;
- `readRows_writeRows`: every table is read as the rows that it was written from.

Does **not** own: what the cells of a table are.

## Which tables the reader accepts

Cells stand between delimiters, and a row ends in a carriage return and a line feed.  A cell in quotes
may hold anything, a quote in it being written twice; a cell without quotes holds no quote, delimiter
or line end.  Everything else is refused.  A blank line is a row without cells, which is why a lone
empty cell has to be quoted.
-/

set_option autoImplicit false

namespace Provenance.Output.Delimited

/-- Where a reader of rows stands. -/
inductive Stand where
  | rowStart
  | cellStart
  | bare
  | quoted
  /-- Behind a quote inside quotes: the cell ends, or the quote was the first of two. -/
  | quoteSeen
  /-- Behind the carriage return of a row's end. -/
  | returnSeen
  deriving DecidableEq, Repr

/-- A reader of rows, with the characters of its cell, the cells before it and the rows before those. -/
structure Reader where
  stand : Stand
  cell : List Char
  cells : List (List Char)
  rows : List (List (List Char))
  deriving Repr

namespace Reader

def initial : Reader := ⟨.rowStart, [], [], []⟩

def take (reader : Reader) (stand : Stand) (character : Char) : Reader :=
  { reader with stand := stand, cell := reader.cell ++ [character] }

def endCell (reader : Reader) (stand : Stand) : Reader :=
  { reader with stand := stand, cell := [], cells := reader.cells ++ [reader.cell] }

def endRow (reader : Reader) : Reader :=
  ⟨.rowStart, [], [], reader.rows ++ [reader.cells]⟩

/-- One character of a cell without quotes, or its end. -/
def stepBare (delimiter : Char) (reader : Reader) (character : Char) : Option Reader :=
  if character = delimiter then some (reader.endCell .cellStart)
  else if character = '\r' then some (reader.endCell .returnSeen)
  else if character = '"' ∨ character = '\n' then none
  else some (reader.take .bare character)

/-- One character further; none where the text is no table. -/
def step (delimiter : Char) (reader : Reader) (character : Char) : Option Reader :=
  match reader.stand with
  | .rowStart =>
    if character = '"' then some { reader with stand := .quoted }
    else if character = '\r' then some { reader with stand := .returnSeen }
    else reader.stepBare delimiter character
  | .cellStart =>
    if character = '"' then some { reader with stand := .quoted }
    else reader.stepBare delimiter character
  | .bare => reader.stepBare delimiter character
  | .quoted =>
    if character = '"' then some { reader with stand := .quoteSeen }
    else some (reader.take .quoted character)
  | .quoteSeen =>
    if character = '"' then some (reader.take .quoted '"')
    else if character = delimiter ∨ character = '\r' then reader.stepBare delimiter character
    else none
  | .returnSeen =>
    if character = '\n' then some reader.endRow else none

def run (delimiter : Char) (reader : Reader) : List Char → Option Reader
  | [] => some reader
  | character :: rest => (reader.step delimiter character).bind fun next => run delimiter next rest

end Reader

/-- The rows of a table; none where the text is no table. -/
def readRows (delimiter : Char) (text : String) : Option (List (List String)) := do
  let reader ← Reader.initial.run delimiter text.toList
  if reader.stand = .rowStart then some (reader.rows.map (·.map String.ofList)) else none

/-- A character that may stand between cells. -/
structure IsDelimiter (delimiter : Char) : Prop where
  notQuote : delimiter ≠ '"'
  notReturn : delimiter ≠ '\r'
  notLineFeed : delimiter ≠ '\n'

namespace Reader

variable {delimiter : Char} {opening : Stand} {cell text rest : List Char}
  {before cells : List (List Char)} {rows table : List (List (List Char))}

theorem run_append (reader : Reader) (first second : List Char) :
    reader.run delimiter (first ++ second) =
      (reader.run delimiter first).bind fun next => next.run delimiter second := by
  induction first generalizing reader with
  | nil => rfl
  | cons character others inductionHypothesis =>
      rw [List.cons_append, run, run]
      cases reader.step delimiter character with
      | none => rfl
      | some next => exact inductionHypothesis next

theorem run_append_of_eq {reader next : Reader} (reads : reader.run delimiter text = some next) :
    reader.run delimiter (text ++ rest) = next.run delimiter rest := by
  rw [run_append, reads, Option.bind_some]

theorem run_cons_of_eq {reader next : Reader} {character : Char}
    (reads : reader.step delimiter character = some next) :
    reader.run delimiter (character :: rest) = next.run delimiter rest := by
  rw [run, reads, Option.bind_some]

theorem step_quoteSeen {reader : Reader} {character : Char} (isBehind : reader.stand = .quoteSeen)
    (notQuote : character ≠ '"') (ends : character = delimiter ∨ character = '\r') :
    reader.step delimiter character = reader.stepBare delimiter character := by
  simp only [step, isBehind, if_neg notQuote, if_pos ends]

/-! ## Cells -/

theorem ne_of_needsQuotes_eq_false (plain : needsQuotes delimiter cell = false) :
    ∀ character ∈ cell, character ≠ delimiter ∧ character ≠ '"' ∧ character ≠ '\r' ∧
      character ≠ '\n' := by
  intro character member
  have each := List.any_eq_false.mp plain character member
  simpa only [Bool.or_eq_true, decide_eq_true_eq, not_or, and_assoc] using each

theorem stepBare_of_plain {reader : Reader} {character : Char} (notDelimiter : character ≠ delimiter)
    (notQuote : character ≠ '"') (notReturn : character ≠ '\r') (notLineFeed : character ≠ '\n') :
    reader.stepBare delimiter character = some (reader.take .bare character) := by
  rw [stepBare, if_neg notDelimiter, if_neg notReturn,
    if_neg (not_or.mpr ⟨notQuote, notLineFeed⟩)]

/-- A cell that needs no quotes is read as it is. -/
theorem run_bare (plain : needsQuotes delimiter text = false) :
    run delimiter ⟨.bare, cell, cells, rows⟩ text = some ⟨.bare, cell ++ text, cells, rows⟩ := by
  induction text generalizing cell with
  | nil => rw [List.append_nil, run]
  | cons character others inductionHypothesis =>
      rw [needsQuotes, List.any_cons, Bool.or_eq_false_iff] at plain
      obtain ⟨notDelimiter, notQuote, notReturn, notLineFeed⟩ := ne_of_needsQuotes_eq_false
        (by rw [needsQuotes, List.any_cons, plain.1, List.any_nil, Bool.or_self])
        character (List.mem_singleton_self character)
      have first : step delimiter ⟨.bare, cell, cells, rows⟩ character =
          some ⟨.bare, cell ++ [character], cells, rows⟩ :=
        stepBare_of_plain notDelimiter notQuote notReturn notLineFeed
      rw [run_cons_of_eq first, inductionHypothesis plain.2, List.append_assoc,
        List.singleton_append]

/-- A text between quotes is read with each doubled quote as one. -/
theorem run_quoted :
    run delimiter ⟨.quoted, cell, cells, rows⟩ (Text.replaceAll '"' ['"', '"'] text) =
      some ⟨.quoted, cell ++ text, cells, rows⟩ := by
  induction text generalizing cell with
  | nil =>
      rw [List.append_nil]
      rfl
  | cons character others inductionHypothesis =>
      have longer : cell ++ character :: others = cell ++ [character] ++ others := by simp
      rw [Text.replaceAll, List.flatMap_cons, longer, ← inductionHypothesis]
      by_cases isQuote : character = '"'
      · subst isQuote
        rfl
      · rw [if_neg isQuote, List.singleton_append]
        refine run_cons_of_eq ?_
        simp only [step, if_neg isQuote]
        rfl

/-- Where a reader stands behind a written cell. -/
inductive Stand.IsBehind (opening : Stand) (cell : List Char) : Stand → Prop
  /-- Nothing has been written for it. -/
  | nothing : cell = [] → IsBehind opening cell opening
  | bare : IsBehind opening cell .bare
  | quoteSeen : IsBehind opening cell .quoteSeen

/-- A written cell is read as that cell. -/
theorem run_writeCell (opens : opening = .rowStart ∨ opening = .cellStart) :
    ∃ stand, run delimiter ⟨opening, [], cells, rows⟩ (writeCell delimiter cell) =
        some ⟨stand, cell, cells, rows⟩ ∧ Stand.IsBehind opening cell stand := by
  by_cases plain : needsQuotes delimiter cell = false
  · rw [writeCell, if_neg (by rw [plain]; exact Bool.false_ne_true)]
    cases cell with
    | nil => exact ⟨opening, rfl, .nothing rfl⟩
    | cons character others =>
        have rest : needsQuotes delimiter others = false := by
          rw [needsQuotes, List.any_cons, Bool.or_eq_false_iff] at plain
          exact plain.2
        obtain ⟨notDelimiter, notQuote, notReturn, notLineFeed⟩ :=
          ne_of_needsQuotes_eq_false plain character List.mem_cons_self
        refine ⟨.bare, ?_, .bare⟩
        have first : step delimiter ⟨opening, [], cells, rows⟩ character =
            some ⟨.bare, [character], cells, rows⟩ := by
          rcases opens with rfl | rfl
          · simp only [step, if_neg notQuote, if_neg notReturn]
            exact stepBare_of_plain notDelimiter notQuote notReturn notLineFeed
          · simp only [step, if_neg notQuote]
            exact stepBare_of_plain notDelimiter notQuote notReturn notLineFeed
        rw [run_cons_of_eq first, run_bare rest, List.singleton_append]
  · rw [Bool.not_eq_false] at plain
    refine ⟨.quoteSeen, ?_, .quoteSeen⟩
    have first : step delimiter ⟨opening, [], cells, rows⟩ '"' =
        some ⟨.quoted, [], cells, rows⟩ := by
      rcases opens with rfl | rfl <;> rfl
    rw [writeCell, if_pos plain, List.cons_append, run_cons_of_eq first,
      run_append_of_eq run_quoted]
    rfl

/-- Behind a cell and a delimiter the next cell begins. -/
theorem run_writeCell_delimiter (isDelimiter : IsDelimiter delimiter)
    (opens : opening = .rowStart ∨ opening = .cellStart) :
    run delimiter ⟨opening, [], cells, rows⟩ (writeCell delimiter cell ++ delimiter :: rest) =
      run delimiter ⟨.cellStart, [], cells ++ [cell], rows⟩ rest := by
  obtain ⟨stand, reads, behind⟩ :=
    @run_writeCell delimiter opening cell cells rows opens
  have ends : ∀ stand, stepBare delimiter ⟨stand, cell, cells, rows⟩ delimiter =
      some ⟨.cellStart, [], cells ++ [cell], rows⟩ := fun _ => if_pos rfl
  rw [run_append_of_eq reads]
  refine run_cons_of_eq ?_
  cases behind with
  | nothing =>
      rcases opens with rfl | rfl
      · simp only [step, if_neg isDelimiter.notQuote, if_neg isDelimiter.notReturn, ends]
      · simp only [step, if_neg isDelimiter.notQuote, ends]
  | bare => exact ends .bare
  | quoteSeen => exact (step_quoteSeen rfl isDelimiter.notQuote (.inl rfl)).trans (ends .quoteSeen)

/-- Behind a cell and a line end the next row begins, unless the line is blank. -/
theorem run_writeCell_lineEnd (isDelimiter : IsDelimiter delimiter)
    (opens : opening = .rowStart ∧ cell ≠ [] ∨ opening = .cellStart) :
    run delimiter ⟨opening, [], cells, rows⟩ (writeCell delimiter cell ++ '\r' :: '\n' :: rest) =
      run delimiter ⟨.rowStart, [], [], rows ++ [cells ++ [cell]]⟩ rest := by
  obtain ⟨stand, reads, behind⟩ :=
    @run_writeCell delimiter opening cell cells rows (opens.imp_left And.left)
  have ends : ∀ stand, stepBare delimiter ⟨stand, cell, cells, rows⟩ '\r' =
      some ⟨.returnSeen, [], cells ++ [cell], rows⟩ := by
    intro stand
    rw [stepBare, if_neg isDelimiter.notReturn.symm, if_pos rfl]
    rfl
  have returns : step delimiter ⟨stand, cell, cells, rows⟩ '\r' =
      some ⟨.returnSeen, [], cells ++ [cell], rows⟩ := by
    cases behind with
    | nothing empty =>
        rcases opens with ⟨-, filled⟩ | rfl
        · exact absurd empty filled
        · exact ends .cellStart
    | bare => exact ends .bare
    | quoteSeen => exact (step_quoteSeen rfl (by decide) (.inr rfl)).trans (ends .quoteSeen)
  rw [run_append_of_eq reads, run_cons_of_eq returns]
  exact run_cons_of_eq rfl

/-! ## Rows -/

/-- The cells behind a delimiter are read up to the line end. -/
theorem run_joined (isDelimiter : IsDelimiter delimiter) (more : cells ≠ []) :
    run delimiter ⟨.cellStart, [], before, rows⟩
        (Text.joinWith delimiter (cells.map (writeCell delimiter)) ++ '\r' :: '\n' :: rest) =
      run delimiter ⟨.rowStart, [], [], rows ++ [before ++ cells]⟩ rest := by
  induction cells generalizing before with
  | nil => exact absurd rfl more
  | cons cell others inductionHypothesis =>
      cases others with
      | nil => exact run_writeCell_lineEnd isDelimiter (.inr rfl)
      | cons next further =>
          have given : (next :: further).map (writeCell delimiter) ≠ [] := List.cons_ne_nil _ _
          rw [List.map_cons, Text.joinWith_cons given, List.append_assoc, List.cons_append,
            run_writeCell_delimiter isDelimiter (.inr rfl),
            inductionHypothesis (List.cons_ne_nil _ _), List.append_assoc, List.singleton_append]

/-- A written row is read as its cells. -/
theorem run_writeCells (isDelimiter : IsDelimiter delimiter) :
    run delimiter ⟨.rowStart, [], [], rows⟩
        (writeCells delimiter cells ++ '\r' :: '\n' :: rest) =
      run delimiter ⟨.rowStart, [], [], rows ++ [cells]⟩ rest := by
  match cells with
  | [] => rfl
  | [[]] =>
      -- The lone empty cell: two quotes, so that the line is not blank.
      have quotes : run delimiter ⟨.rowStart, [], [], rows⟩ ['"', '"'] =
          some ⟨.quoteSeen, [], [], rows⟩ := rfl
      have returns : step delimiter ⟨.quoteSeen, [], [], rows⟩ '\r' =
          some ⟨.returnSeen, [], [[]], rows⟩ := by
        have bare : stepBare delimiter ⟨.quoteSeen, [], [], rows⟩ '\r' =
            some ⟨.returnSeen, [], [[]], rows⟩ := by
          rw [stepBare, if_neg isDelimiter.notReturn.symm, if_pos rfl]
          rfl
        exact (step_quoteSeen rfl (by decide) (.inr rfl)).trans bare
      rw [writeCells, run_append_of_eq quotes, run_cons_of_eq returns]
      exact run_cons_of_eq rfl
  | [character :: others] =>
      exact run_writeCell_lineEnd isDelimiter (.inl ⟨rfl, List.cons_ne_nil _ _⟩)
  | cell :: next :: further =>
      have written : writeCells delimiter (cell :: next :: further) =
          writeCell delimiter cell ++ delimiter ::
            Text.joinWith delimiter ((next :: further).map (writeCell delimiter)) := by
        cases cell <;> rfl
      rw [written, List.append_assoc, List.cons_append,
        run_writeCell_delimiter isDelimiter (.inl rfl),
        run_joined isDelimiter (List.cons_ne_nil _ _), List.nil_append, List.singleton_append]

/-- The rows of a table are read one after another. -/
theorem run_rows (isDelimiter : IsDelimiter delimiter) :
    run delimiter ⟨.rowStart, [], [], rows⟩
        (table.flatMap fun cells => writeCells delimiter cells ++ ['\r', '\n']) =
      some ⟨.rowStart, [], [], rows ++ table⟩ := by
  induction table generalizing rows with
  | nil =>
      rw [List.append_nil]
      rfl
  | cons cells others inductionHypothesis =>
      rw [List.flatMap_cons, List.append_assoc, List.cons_append, List.singleton_append,
        run_writeCells isDelimiter, inductionHypothesis, List.append_assoc, List.singleton_append]

end Reader

/-- **Every table is read as the rows that it was written from**, whatever is in its cells. -/
theorem readRows_writeRows {delimiter : Char} (isDelimiter : IsDelimiter delimiter)
    (rows : List (List String)) : readRows delimiter (writeRows delimiter rows) = some rows := by
  have written : rows.flatMap (writeRow delimiter) =
      (rows.map (·.map String.toList)).flatMap fun cells =>
        writeCells delimiter cells ++ ['\r', '\n'] := by
    rw [List.flatMap_map]
    rfl
  have back : (rows.map (·.map String.toList)).map (·.map String.ofList) = rows := by
    simp [Function.comp_def]
  have reads := @Reader.run_rows delimiter [] (rows.map (·.map String.toList)) isDelimiter
  rw [readRows, writeRows, String.toList_ofList, written, Reader.initial, reads]
  simp only [List.nil_append, Option.bind_eq_bind, Option.bind_some, if_true, back]

end Provenance.Output.Delimited
