import Provenance.Proofs.Text.Cut
import Provenance.Table.Basic

/-!
Contract: tables of two columns in which nothing is broken or cropped.

Owns:
- `IsLevel`, texts of which each character takes the room of one;
- `wrapLeft_eq`, `wrapCentred_eq` and `fitting_eq_self`: such a text stands on one line where it fits;
- `columnWidths_eq`: columns are as wide as they want to be where there is room;
- `grid` and `bodyLines_eq`, the lines of a table below its title;
- `roomsOf`, `lineRoom` and `lines_of_seen`: all lines of a table for which the console is wide enough.

Does **not** own: markup, and texts that do not fit.
-/

set_option autoImplicit false

namespace Provenance.Table

variable {text line word : List Char} {width : Nat}

/-! ## The room of a text -/

/-- Each character takes the room of one, which no line feed and no tab does. -/
def IsLevel (text : List Char) : Prop :=
  ∀ character ∈ text, cellWidth character = 1

instance (text : List Char) : Decidable (IsLevel text) :=
  List.decidableBAll (fun character : Char => cellWidth character = 1) text

theorem IsLevel.append {first second : List Char} (level : IsLevel first) (other : IsLevel second) :
    IsLevel (first ++ second) :=
  List.forall_mem_append.mpr ⟨level, other⟩

theorem isLevel_blanks (count : Nat) : IsLevel (blanks count) := by
  intro character member
  obtain rfl := List.eq_of_mem_replicate member
  rfl

/-- Control characters take no room, so none is in a level text. -/
theorem IsLevel.not_mem_of_control (level : IsLevel text) {character : Char}
    (control : character.toNat < 32) : character ∉ text := by
  intro member
  have room := level character member
  simp [cellWidth, control] at room

/-- The characters that are printed in ASCII. -/
def IsPrintable (text : List Char) : Prop :=
  ∀ character ∈ text, 32 ≤ character.toNat ∧ character.toNat < 127

instance (text : List Char) : Decidable (IsPrintable text) :=
  List.decidableBAll (fun character : Char => 32 ≤ character.toNat ∧ character.toNat < 127) text

theorem IsPrintable.isLevel (printable : IsPrintable text) : IsLevel text := by
  intro character member
  obtain ⟨notLow, notHigh⟩ := printable character member
  rw [cellWidth]
  have noControl : (decide (character.toNat < 32) ||
      (decide (127 ≤ character.toNat) && decide (character.toNat < 160))) = false := by
    simp only [Bool.or_eq_false_iff, Bool.and_eq_false_iff, decide_eq_false_iff_not]
    omega
  simp only [noControl, Bool.false_eq_true, if_false]

theorem foldl_cellWidth (level : IsLevel text) (taken : Nat) :
    text.foldl (fun taken character => taken + cellWidth character) taken = taken + text.length := by
  induction text generalizing taken with
  | nil => rfl
  | cons character rest inductionHypothesis =>
      obtain ⟨one, more⟩ := List.forall_mem_cons.mp level
      rw [List.foldl_cons, inductionHypothesis more, one, List.length_cons]
      omega

theorem cells_eq_length (level : IsLevel text) : cells text = text.length := by
  rw [cells, foldl_cellWidth level, Nat.zero_add]

theorem fitting_eq_self (level : IsLevel text) (fits : text.length ≤ width) :
    fitting width text = text := by
  induction text generalizing width with
  | nil => rfl
  | cons character rest inductionHypothesis =>
      obtain ⟨one, more⟩ := List.forall_mem_cons.mp level
      rw [List.length_cons] at fits
      rw [fitting, one, if_pos (by omega), inductionHypothesis more (by omega)]

theorem expandTabs_eq_self (noTab : '\t' ∉ text) (column : Nat) : expandTabs column text = text := by
  induction text generalizing column with
  | nil => rfl
  | cons character rest inductionHypothesis =>
      obtain ⟨first, more⟩ := not_or.mp (mt List.mem_cons.mpr noTab)
      rw [expandTabs, inductionHypothesis more]
      exact fun isTab => first isTab.symm

/-! ## Lines that are not broken -/

theorem flatten_consWord (character : Char) (words : List (List Char)) :
    (consWord character words).flatten = character :: words.flatten := by
  unfold consWord
  split
  · split <;> simp
  · simp

/-- The words of a line make up the line. -/
theorem flatten_words (given : words line ≠ []) : (words line).flatten = line := by
  have pieces : ∀ text : List Char, (text.foldr consWord []).flatten = text := by
    intro text
    induction text with
    | nil => rfl
    | cons character rest inductionHypothesis =>
        rw [List.foldr_cons, flatten_consWord, inductionHypothesis]
  unfold words at given ⊢
  split at given
  · exact absurd rfl given
  · next first rest isWords =>
      have whole := pieces (line.dropWhile Text.isBlank)
      rw [isWords, List.flatten_cons] at whole
      rw [List.flatten_cons, List.append_assoc, whole, List.takeWhile_append_dropWhile]

/-- A word is put on the line as long as there is room for it. -/
theorem addWord_eq {mayFold : Bool} {filling : Filling} (level : IsLevel word)
    (fits : filling.used + word.length ≤ width) :
    filling.addWord mayFold width word =
      { filling with line := filling.line ++ word, used := filling.used + word.length } := by
  have trimmed : IsLevel (Text.trimRight word) :=
    fun character member => level character (Text.mem_of_mem_trimRight member)
  have shorter := (Text.trimRight_isPrefix word).length_le
  rw [Filling.addWord]
  simp only [cells_eq_length trimmed]
  rw [if_pos (by omega), Filling.put, cells_eq_length level]

theorem foldl_addWord {mayFold : Bool} {texts : List (List Char)} (level : IsLevel texts.flatten)
    (filling : Filling) (fits : filling.used + texts.flatten.length ≤ width) :
    texts.foldl (Filling.addWord mayFold width) filling =
      { filling with
        line := filling.line ++ texts.flatten
        used := filling.used + texts.flatten.length } := by
  induction texts generalizing filling with
  | nil => simp
  | cons word rest inductionHypothesis =>
      rw [List.flatten_cons] at level fits
      obtain ⟨wordLevel, restLevel⟩ := List.forall_mem_append.mp level
      rw [List.length_append] at fits
      rw [List.foldl_cons, addWord_eq wordLevel (by omega),
        inductionHypothesis restLevel _ (by simp only; omega)]
      simp only [List.flatten_cons, List.append_assoc, List.length_append, Nat.add_assoc]

theorem divide_eq (mayFold : Bool) (level : IsLevel line) (fits : line.length ≤ width) :
    divide mayFold width line = [line] := by
  unfold divide
  split
  · rfl
  · next isWords =>
      have whole := flatten_words isWords
      have fills := @foldl_addWord width mayFold (words line) (by rwa [whole]) {}
        (by rw [whole]; simpa using fits)
      rw [fills, whole]
      simp [Filling.lines]

theorem dropExcess_eq (fits : line.length ≤ width) : dropExcess width line = line := by
  rw [dropExcess]
  simp [Nat.sub_eq_zero_of_le fits]

theorem brokenLines_eq (mayFold : Bool) (level : IsLevel text) (fits : text.length ≤ width) :
    brokenLines mayFold width text = [text] := by
  have noLineFeed : '\n' ∉ text := level.not_mem_of_control (by decide)
  have noTab : '\t' ∉ text := level.not_mem_of_control (by decide)
  rw [brokenLines, Text.split_of_not_mem noLineFeed]
  simp [expandTabs_eq_self noTab, divide_eq mayFold level fits, dropExcess_eq fits]

/-- A text that fits stands on one line, which is filled up with blanks. -/
theorem wrapLeft_eq (level : IsLevel text) (fits : text.length ≤ width) :
    wrapLeft width text = [text ++ blanks (width - text.length)] := by
  rw [wrapLeft, brokenLines_eq false level fits, List.map_singleton, leftLine,
    cells_eq_length level, if_neg (Nat.not_lt.mpr fits)]

theorem wrapCentred_eq (level : IsLevel text) (fits : text.length ≤ width) :
    wrapCentred width text = [centredLine width text] := by
  rw [wrapCentred, brokenLines_eq true level fits, List.map_singleton]

/-- A line in the middle has the text up to its last character that is not blank. -/
theorem centredLine_eq (level : IsLevel text) (fits : text.length ≤ width) :
    ∃ before after, centredLine width text = blanks before ++ Text.trimRight text ++ blanks after ∧
      before + (Text.trimRight text).length + after = width := by
  have trimmed : IsLevel (Text.trimRight text) :=
    fun character member => level character (Text.mem_of_mem_trimRight member)
  have shorter := (Text.trimRight_isPrefix text).length_le
  refine ⟨(width - (Text.trimRight text).length) / 2,
    width - (width - (Text.trimRight text).length) / 2 - (Text.trimRight text).length, ?_, ?_⟩
  · rw [centredLine, fitting_eq_self trimmed (by omega), cells_eq_length trimmed, List.append_assoc]
  · omega

/-! ## Columns -/

theorem textWidth_eq (printable : IsPrintable text) : textWidth text = text.length := by
  have noEnd : ∀ character ∈ text, (if endsLine character then '\n' else character) = character := by
    intro character member
    obtain ⟨notLow, notHigh⟩ := printable character member
    refine if_neg fun ends => ?_
    simp only [endsLine, List.contains_eq_mem, decide_eq_true_eq, List.mem_cons,
      List.not_mem_nil, or_false] at ends
    omega
  have noLineFeed : '\n' ∉ text := printable.isLevel.not_mem_of_control (by decide)
  rw [textWidth, List.map_congr_left noEnd, List.map_id', Text.split_of_not_mem noLineFeed]
  simp [cells_eq_length printable.isLevel]

/-- The length of the longest text of some. -/
def longest (texts : List (List Char)) : Nat :=
  (texts.map List.length).foldl max 0

theorem start_le_foldl_max (numbers : List Nat) (start : Nat) : start ≤ numbers.foldl max start := by
  induction numbers generalizing start with
  | nil => exact Nat.le_refl start
  | cons first rest inductionHypothesis =>
      exact (Nat.le_max_left start first).trans (inductionHypothesis _)

theorem le_foldl_max {numbers : List Nat} {number : Nat} (member : number ∈ numbers)
    (start : Nat) : number ≤ numbers.foldl max start := by
  induction numbers generalizing start with
  | nil => cases member
  | cons first rest inductionHypothesis =>
      rcases List.mem_cons.mp member with rfl | later
      · exact (Nat.le_max_right start _).trans (start_le_foldl_max rest _)
      · exact inductionHypothesis later _

theorem length_le_longest {texts : List (List Char)} (member : text ∈ texts) :
    text.length ≤ longest texts :=
  le_foldl_max (List.mem_map_of_mem member) 0

theorem foldl_max_add (numbers : List Nat) (start more : Nat) :
    (numbers.map (· + more)).foldl max (start + more) = numbers.foldl max start + more := by
  induction numbers generalizing start with
  | nil => rfl
  | cons first rest inductionHypothesis =>
      rw [List.map_cons, List.foldl_cons, List.foldl_cons, Nat.add_max_add_right,
        inductionHypothesis]

/-- A column asks for the room of its longest text and for that around it. -/
theorem wantedWidth_eq {texts : List (List Char)} {total : Nat}
    (printable : ∀ text ∈ texts, IsPrintable text) (given : 0 < longest texts)
    (fits : longest texts + padding ≤ total) :
    wantedWidth total texts = longest texts + padding := by
  have room : ∀ text ∈ texts, min total (textWidth text + padding) = text.length + padding := by
    intro text member
    have shorter := length_le_longest member
    rw [textWidth_eq (printable text member)]
    omega
  rw [wantedWidth, if_neg (by omega), List.map_congr_left room]
  cases texts with
  | nil => cases given
  | cons first rest =>
      have behind := foldl_max_add (rest.map List.length) first.length padding
      rw [List.map_map] at behind
      simp only [longest, List.map_cons, List.foldl_cons, Nat.zero_max]
      exact behind

/-- Two columns are as wide as they want to be, where there is room for both. -/
theorem columnWidths_eq {names values : List (List Char)} {total : Nat}
    (printableNames : ∀ text ∈ names, IsPrintable text)
    (printableValues : ∀ text ∈ values, IsPrintable text)
    (givenNames : 0 < longest names) (givenValues : 0 < longest values)
    (fits : longest names + padding + (longest values + padding) ≤ total) :
    columnWidths total [names, values] = [longest names + padding, longest values + padding] := by
  have wanted : [names, values].map (fun texts => max 1 (wantedWidth total texts)) =
      [longest names + padding, longest values + padding] := by
    have namesFit : longest names + padding ≤ total := by omega
    have valuesFit : longest values + padding ≤ total := by omega
    have one : 1 ≤ longest names + padding := by omega
    have other : 1 ≤ longest values + padding := by omega
    simp only [List.map_cons, List.map_nil, wantedWidth_eq printableNames givenNames namesFit,
      wantedWidth_eq printableValues givenValues valuesFit, Nat.max_eq_right one,
      Nat.max_eq_right other]
  rw [columnWidths]
  simp only [wanted]
  rw [if_pos]
  simpa [totalWidth] using fits

/-! ## Rows -/

/-- The cell of a text in a column whose longest text has some length. -/
def cell (room : Nat) (text : List Char) : List Char :=
  ' ' :: (text ++ blanks (room - text.length)) ++ [' ']

/-- The line of a row of two cells. -/
def row (rooms : Nat × Nat) (texts : List Char × List Char) : List Char :=
  '│' :: cell rooms.1 texts.1 ++ '│' :: cell rooms.2 texts.2 ++ ['│']

/-- A table of two columns with one line for each row. -/
def grid (rooms : Nat × Nat) (heading : List Char × List Char)
    (rows : List (List Char × List Char)) : List (List Char) :=
  let widths := [rooms.1 + padding, rooms.2 + padding]
  border '╭' '┬' '╮' widths :: row rooms heading :: border '├' '┼' '┤' widths ::
    rows.map (row rooms) ++ [border '╰' '┴' '╯' widths]

theorem cellLines_eq {room : Nat} (given : 0 < room) (level : IsLevel text)
    (fits : text.length ≤ room) : cellLines (room + padding) text = [cell room text] := by
  rw [cellLines, if_neg (by omega), Nat.add_sub_cancel, wrapLeft_eq level fits]
  rfl

/-- What is asked of the texts of a row for it to have one line. -/
structure FitsIn (rooms : Nat × Nat) (texts : List Char × List Char) : Prop where
  level : IsLevel texts.1
  otherLevel : IsLevel texts.2
  fits : texts.1.length ≤ rooms.1
  otherFits : texts.2.length ≤ rooms.2

variable {rooms : Nat × Nat} {texts heading : List Char × List Char}
  {rows : List (List Char × List Char)}

theorem rowLines_eq (given : 0 < rooms.1) (givenOther : 0 < rooms.2) (fitsIn : FitsIn rooms texts) :
    rowLines [rooms.1 + padding, rooms.2 + padding] [texts.1, texts.2] = [row rooms texts] := by
  rw [rowLines]
  simp only [List.zip_cons_cons, List.zip_nil_right, List.map_cons, List.map_nil,
    cellLines_eq given fitsIn.level fitsIn.fits,
    cellLines_eq givenOther fitsIn.otherLevel fitsIn.otherFits]
  simp [List.range_succ, rowLine, row, List.intercalate]

/-- **A table whose texts fit has one line for each row.** -/
theorem bodyLines_eq (given : 0 < rooms.1) (givenOther : 0 < rooms.2)
    (headingFits : FitsIn rooms heading) (rowsFit : ∀ texts ∈ rows, FitsIn rooms texts) :
    bodyLines [rooms.1 + padding, rooms.2 + padding] [heading.1, heading.2]
      (rows.map fun texts => [texts.1, texts.2]) = grid rooms heading rows := by
  have lines : (rows.map fun texts => [texts.1, texts.2]).flatMap
      (rowLines [rooms.1 + padding, rooms.2 + padding]) = rows.map (row rooms) := by
    rw [List.flatMap_map]
    induction rows with
    | nil => rfl
    | cons texts rest inductionHypothesis =>
        obtain ⟨first, more⟩ := List.forall_mem_cons.mp rowsFit
        rw [List.flatMap_cons, rowLines_eq given givenOther first, inductionHypothesis more]
        rfl
  rw [bodyLines, lines, rowLines_eq given givenOther headingFits]
  rfl

/-! ## The room of a line -/

/-- The room that a line of such a table takes. -/
def lineRoom (rooms : Nat × Nat) : Nat :=
  rooms.1 + rooms.2 + 2 * padding + 3

theorem isLevel_cell {room : Nat} (level : IsLevel text) : IsLevel (cell room text) := by
  have blank : IsLevel [' '] := isLevel_blanks 1
  exact (blank.append (level.append (isLevel_blanks _))).append blank

theorem length_cell {room : Nat} (fits : text.length ≤ room) :
    (cell room text).length = room + padding := by
  simp only [cell, List.length_append, List.length_cons, List.length_nil, blanks,
    List.length_replicate, padding]
  omega

theorem isLevel_row (fitsIn : FitsIn rooms texts) : IsLevel (row rooms texts) := by
  have stroke : IsLevel ['│'] := by decide
  exact ((stroke.append (isLevel_cell fitsIn.level)).append
    (stroke.append (isLevel_cell fitsIn.otherLevel))).append stroke

theorem length_row (fitsIn : FitsIn rooms texts) : (row rooms texts).length = lineRoom rooms := by
  simp only [row, List.length_append, List.length_cons, List.length_nil, length_cell fitsIn.fits,
    length_cell fitsIn.otherFits, lineRoom]
  omega

/-- A border between two columns. -/
theorem border_eq (left middle right : Char) (first second : Nat) :
    border left middle right [first, second] =
      left :: List.replicate first '─' ++ middle :: List.replicate second '─' ++ [right] := by
  simp [border, List.intercalate]

theorem isLevel_border {left middle right : Char} (level : IsLevel [left, middle, right])
    (first second : Nat) : IsLevel (border left middle right [first, second]) := by
  have strokes : ∀ count, IsLevel (List.replicate count '─') := by
    intro count character member
    obtain rfl := List.eq_of_mem_replicate member
    decide
  obtain ⟨isLeft, others⟩ := List.forall_mem_cons.mp level
  obtain ⟨isMiddle, isRight⟩ := List.forall_mem_cons.mp others
  have front : IsLevel (left :: List.replicate first '─') :=
    List.forall_mem_cons.mpr ⟨isLeft, strokes first⟩
  have behind : IsLevel (middle :: List.replicate second '─') :=
    List.forall_mem_cons.mpr ⟨isMiddle, strokes second⟩
  rw [border_eq]
  exact (front.append behind).append isRight

/-- The lines of such a table are level and of one length. -/
theorem fits_of_mem_grid (headingFits : FitsIn rooms heading)
    (rowsFit : ∀ texts ∈ rows, FitsIn rooms texts) :
    ∀ line ∈ grid rooms heading rows, IsLevel line ∧ line.length = lineRoom rooms := by
  have isBorder : ∀ left middle right, IsLevel [left, middle, right] →
      IsLevel (border left middle right [rooms.1 + padding, rooms.2 + padding]) ∧
        (border left middle right [rooms.1 + padding, rooms.2 + padding]).length =
          lineRoom rooms := by
    intro left middle right level
    refine ⟨isLevel_border level _ _, ?_⟩
    rw [border_eq]
    simp only [List.length_append, List.length_cons, List.length_nil, List.length_replicate,
      lineRoom]
    omega
  intro line member
  simp only [grid, List.cons_append, List.mem_cons, List.mem_append, List.mem_map,
    List.not_mem_nil, or_false] at member
  rcases member with rfl | rfl | rfl | ⟨texts, isRow, rfl⟩ | rfl
  · exact isBorder _ _ _ (by decide)
  · exact ⟨isLevel_row headingFits, length_row headingFits⟩
  · exact isBorder _ _ _ (by decide)
  · exact ⟨isLevel_row (rowsFit texts isRow), length_row (rowsFit texts isRow)⟩
  · exact isBorder _ _ _ (by decide)

/-! ## The whole table -/

theorem columnsOf_two (heading : List Char × List Char) (rows : List (List Char × List Char)) :
    columnsOf 2 ([heading.1, heading.2] :: rows.map fun texts => [texts.1, texts.2]) =
      [heading.1 :: rows.map Prod.fst, heading.2 :: rows.map Prod.snd] := by
  have first : (rows.map fun texts => [texts.1, texts.2]).filterMap (·[0]?) = rows.map Prod.fst := by
    rw [List.filterMap_map, ← List.filterMap_eq_map]
    rfl
  have second : (rows.map fun texts => [texts.1, texts.2]).filterMap (·[1]?) = rows.map Prod.snd := by
    rw [List.filterMap_map, ← List.filterMap_eq_map]
    rfl
  simp [columnsOf, List.range_succ, first, second]

/-- The rooms of two columns whose texts are these. -/
def roomsOf (heading : List Char × List Char) (rows : List (List Char × List Char)) : Nat × Nat :=
  (longest (heading.1 :: rows.map Prod.fst), longest (heading.2 :: rows.map Prod.snd))

theorem fitsIn_roomsOf
    (printable : ∀ texts ∈ heading :: rows, IsPrintable texts.1 ∧ IsPrintable texts.2) :
    ∀ texts ∈ heading :: rows, FitsIn (roomsOf heading rows) texts := by
  intro texts member
  refine ⟨(printable texts member).1.isLevel, (printable texts member).2.isLevel,
    length_le_longest ?_, length_le_longest ?_⟩
  · exact (List.mem_map_of_mem member : texts.1 ∈ (heading :: rows).map Prod.fst)
  · exact (List.mem_map_of_mem member : texts.2 ∈ (heading :: rows).map Prod.snd)

/-- The columns are as wide as they want to be where a line has its room. -/
theorem columnWidths_roomsOf
    (printable : ∀ texts ∈ heading :: rows, IsPrintable texts.1 ∧ IsPrintable texts.2)
    (given : 0 < (roomsOf heading rows).1) (givenOther : 0 < (roomsOf heading rows).2)
    (fits : lineRoom (roomsOf heading rows) ≤ width) :
    columnWidths (width - 3)
      (columnsOf 2 ([heading.1, heading.2] :: rows.map fun texts => [texts.1, texts.2])) =
        [(roomsOf heading rows).1 + padding, (roomsOf heading rows).2 + padding] := by
  rw [columnsOf_two]
  refine columnWidths_eq ?_ ?_ given givenOther ?_
  · exact List.forall_mem_map.mpr (fun texts isRow => (printable texts isRow).1 :
      ∀ texts ∈ heading :: rows, IsPrintable texts.1)
  · exact List.forall_mem_map.mpr (fun texts isRow => (printable texts isRow).2 :
      ∀ texts ∈ heading :: rows, IsPrintable texts.2)
  · simp only [lineRoom, roomsOf] at fits ⊢
    omega

/-- Nothing of the rows is cut to the console. -/
theorem map_fitting_grid (headingFits : FitsIn rooms heading)
    (rowsFit : ∀ texts ∈ rows, FitsIn rooms texts) (fits : lineRoom rooms ≤ width) :
    (grid rooms heading rows).map (fitting width) = grid rooms heading rows := by
  refine (List.map_congr_left fun line member => ?_).trans (List.map_id _)
  obtain ⟨level, length_eq⟩ := fits_of_mem_grid headingFits rowsFit line member
  exact fitting_eq_self level (length_eq.le.trans fits)

/-- **What is printed of a table whose texts fit the console**: its title, if any is to be seen, above
its rows. -/
theorem lines_of_seen {table : Table} {width : Nat}
    (headingSeen : table.heading.mapM Markup.visible = .ok [heading.1, heading.2])
    (rowsSeen : table.rows.mapM (fun row => row.mapM Markup.visible) =
      .ok (rows.map fun texts => [texts.1, texts.2]))
    (printable : ∀ texts ∈ heading :: rows, IsPrintable texts.1 ∧ IsPrintable texts.2)
    (given : 0 < (roomsOf heading rows).1) (givenOther : 0 < (roomsOf heading rows).2)
    (fits : lineRoom (roomsOf heading rows) ≤ width) :
    table.lines width = (Markup.visible table.title).map fun title =>
      (((if table.title.isEmpty then []
          else wrapCentred (lineRoom (roomsOf heading rows)) title).map (fitting width) ++
        grid (roomsOf heading rows) heading rows).map String.ofList) := by
  obtain ⟨headingFits, othersFit⟩ := List.forall_mem_cons.mp (fitsIn_roomsOf printable)
  have widths := columnWidths_roomsOf printable given givenOther fits
  have room : totalWidth [(roomsOf heading rows).1 + padding, (roomsOf heading rows).2 + padding] +
      3 = lineRoom (roomsOf heading rows) := by
    simp only [totalWidth, List.foldl_cons, List.foldl_nil, lineRoom]
    omega
  have body := bodyLines_eq given givenOther headingFits othersFit
  have whole := map_fitting_grid headingFits othersFit fits
  have printed (above : List (List Char)) :
      (above ++ grid (roomsOf heading rows) heading rows).map
          (fun line => String.ofList (fitting width line)) =
        (above.map (fitting width) ++ grid (roomsOf heading rows) heading rows).map
          String.ofList := by
    conv_rhs => rw [← whole]
    simp only [List.map_append, List.map_map, Function.comp_def]
  rw [lines, headingSeen, rowsSeen]
  -- Only the title is left to be read, and only it may be cut to the console.
  cases Markup.visible table.title with
  | error fault => rfl
  | ok title =>
      refine congrArg Except.ok (.trans ?_ (printed _))
      rw [← body, ← room, ← widths]
      rfl

end Provenance.Table
