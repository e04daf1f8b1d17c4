import Provenance.Proofs.Table.Layout
import Provenance.Proofs.Table.Markup

/-!
Contract: what the table of a record shows of its fields.

Owns:
- `Record.fieldTexts`, the texts of the fields, and `shown`, what stands for an empty one;
- `rows_seen`: what is seen of the rows is the fields themselves;
- `recordLines`, the lines of a record below its title;
- `IsTableOf` and `lines_ofRecord`, the law of a whole table: its rows, its title and its failures.

Does **not** own: tables that have to be broken into lines, texts with backslashes, and the names of
emoji between colons, which no table knows here.

## Why the title is apart

The texts of the rows are escaped.  The title is the root of the repository as it is, and so it is
read as markup: a tag in it is taken out, and a tag that closes nothing is a fault of the whole table.
-/

set_option autoImplicit false

namespace Provenance

open Data (Value)
open Failure (Fault)
open Table.Markup (HoldsTag IsStill IsStripped beginsTag visible)

/-! ## The texts of a record -/

/-- The texts of the fields by name, in order.  A list is one text. -/
def Record.fieldTexts (record : Record) : List (String × String) :=
  [
    ("base_dir", record.baseDir),
    ("rel_dir", record.relDir),
    ("remote_url", record.remoteUrl),
    ("git_url", record.gitUrl),
    ("hash", record.hash),
    ("short_hash", record.shortHash),
    ("branch", ", ".intercalate record.branch),
    ("tags", ", ".intercalate record.tags),
    ("timestamp", record.timestamp)
  ]

/-- All texts that are in a record. -/
def Record.texts (record : Record) : List String :=
  [record.baseDir, record.relDir, record.remoteUrl, record.gitUrl, record.hash, record.shortHash,
    record.timestamp] ++ record.branch ++ record.tags

namespace Table

/-- Printable text without backslashes. -/
structure IsPlain (text : String) : Prop where
  printable : IsPrintable text.toList
  unmarked : '\\' ∉ text.toList

instance (text : String) : Decidable (IsPlain text) :=
  decidable_of_iff (IsPrintable text.toList ∧ '\\' ∉ text.toList)
    ⟨fun ⟨printable, unmarked⟩ => ⟨printable, unmarked⟩,
      fun plain => ⟨plain.printable, plain.unmarked⟩⟩

variable {text name : String} {record : Record} {width : Nat}

theorem IsPlain.isStill (plain : IsPlain text) : IsStill text.toList := by
  intro character member
  obtain ⟨notLow, -⟩ := plain.printable character member
  simp only [Markup.isControl, List.contains_eq_mem, decide_eq_false_iff_not, List.mem_cons,
    List.not_mem_nil, or_false]
  omega

/-- What is between texts is there too. -/
theorem mem_intercalate {separator : List Char} {texts : List (List Char)} {character : Char}
    (member : character ∈ separator.intercalate texts) :
    character ∈ separator ∨ ∃ text ∈ texts, character ∈ text := by
  induction texts with
  | nil => cases member
  | cons first rest inductionHypothesis =>
      cases rest with
      | nil => exact .inr ⟨first, List.mem_cons_self, by simpa using member⟩
      | cons next others =>
          rw [List.intercalate_cons_cons, List.mem_append, List.mem_append] at member
          rcases member with (inFirst | isSeparator) | behind
          · exact .inr ⟨first, List.mem_cons_self, inFirst⟩
          · exact .inl isSeparator
          · exact (inductionHypothesis behind).imp_right fun ⟨text, isText, inside⟩ =>
              ⟨text, List.mem_cons_of_mem _ isText, inside⟩

theorem isPlain_intercalate {texts : List String} (plain : ∀ text ∈ texts, IsPlain text) :
    IsPlain (", ".intercalate texts) := by
  have members : ∀ character ∈ (", ".intercalate texts).toList,
      character ∈ [',', ' '] ∨ ∃ text ∈ texts, character ∈ text.toList := by
    intro character member
    rw [String.toList_intercalate] at member
    exact (mem_intercalate member).imp_right fun ⟨_, isText, inside⟩ =>
      have ⟨text, isListed, same⟩ := List.mem_map.mp isText
      ⟨text, isListed, same ▸ inside⟩
  have separator : IsPrintable [',', ' '] := by decide
  refine ⟨fun character member => ?_, fun member => ?_⟩
  · rcases members character member with isSeparator | ⟨text, isText, inside⟩
    · exact separator character isSeparator
    · exact (plain text isText).printable character inside
  · rcases members '\\' member with isSeparator | ⟨text, isText, inside⟩
    · exact absurd isSeparator (by decide)
    · exact (plain text isText).unmarked inside

/-- A field is one of the texts, or it is a list of some. -/
theorem cases_fieldTexts {field : String × String} (member : field ∈ record.fieldTexts) :
    field.2 ∈ record.texts ∨ field.2 = ", ".intercalate record.branch ∨
      field.2 = ", ".intercalate record.tags := by
  simp only [Record.fieldTexts, List.mem_cons, List.not_mem_nil, or_false] at member
  rcases member with rfl | rfl | rfl | rfl | rfl | rfl | rfl | rfl | rfl <;> simp [Record.texts]

theorem isPlain_of_mem_fieldTexts (plain : ∀ text ∈ record.texts, IsPlain text)
    {field : String × String} (member : field ∈ record.fieldTexts) : IsPlain field.2 := by
  rcases cases_fieldTexts member with isText | isBranch | isTags
  · exact plain field.2 isText
  · rw [isBranch]
    exact isPlain_intercalate fun text isListed => plain text (by simp [Record.texts, isListed])
  · rw [isTags]
    exact isPlain_intercalate fun text isListed => plain text (by simp [Record.texts, isListed])

/-! ## What is seen of the rows -/

/-- What is seen of a text; a stroke stands for an empty one. -/
def shown (text : String) : String :=
  if text.isEmpty then "-" else text

/-- The markup of a text. -/
def textMarkup (text : String) : String :=
  if text.isEmpty then "[dim]-[/dim]" else Markup.escape text

theorem visible_textMarkup (plain : IsPlain text) :
    visible (textMarkup text) = .ok (shown text).toList := by
  unfold textMarkup shown
  split
  · rfl
  · exact Markup.visible_escape plain.unmarked plain.isStill

theorem rows_ofRecord (record : Record) (title : String) :
    (ofRecord record title).rows =
      record.fieldTexts.map fun (name, text) => [name, textMarkup text] := by
  have list (texts : List String) :
      valueMarkup (.texts texts) = textMarkup (", ".intercalate texts) := by
    have displays : (texts.map fun text => Value.text text).map Value.display = texts := by
      rw [List.map_map]
      exact List.map_id _
    simp only [valueMarkup, Value.texts, displays]
    rfl
  simp only [ofRecord, Record.fields, Record.fieldTexts, List.map_cons, List.map_nil, list]
  rfl

/-- The names of the fields and the heading have no brackets. -/
theorem isPlain_of_mem_names (member : name ∈ "Field" :: "Value" :: record.fieldTexts.map Prod.fst) :
    IsPlain name ∧ '[' ∉ name.toList := by
  have names : ∀ name ∈ ["Field", "Value", "base_dir", "rel_dir", "remote_url", "git_url", "hash",
      "short_hash", "branch", "tags", "timestamp"],
      IsPrintable name.toList ∧ '\\' ∉ name.toList ∧ '[' ∉ name.toList := by
    decide
  obtain ⟨printable, unmarked, unbracketed⟩ := names name member
  exact ⟨⟨printable, unmarked⟩, unbracketed⟩

theorem visible_name (member : name ∈ "Field" :: "Value" :: record.fieldTexts.map Prod.fst) :
    visible name = .ok name.toList := by
  obtain ⟨plain, unbracketed⟩ := isPlain_of_mem_names member
  exact Markup.visible_of_not_holdsTag plain.unmarked plain.isStill
    (Markup.not_holdsTag unbracketed)

/-- What is to be seen of a record, row by row. -/
def shownRows (record : Record) : List (List Char × List Char) :=
  record.fieldTexts.map fun (name, text) => (name.toList, (shown text).toList)

theorem mapM_eq_ok {α β : Type} {read : α → Except Fault β} {result : α → β} {items : List α}
    (each : ∀ item ∈ items, read item = .ok (result item)) :
    items.mapM read = .ok (items.map result) := by
  induction items with
  | nil => rfl
  | cons item rest inductionHypothesis =>
      obtain ⟨first, more⟩ := List.forall_mem_cons.mp each
      rw [List.mapM_cons, first, inductionHypothesis more]
      rfl

/-- **The rows of a record are seen as they are**, whatever brackets are in its texts. -/
theorem rows_seen (plain : ∀ text ∈ record.texts, IsPlain text) (title : String) :
    (ofRecord record title).rows.mapM (fun row => row.mapM visible) =
      .ok ((shownRows record).map fun texts => [texts.1, texts.2]) := by
  rw [rows_ofRecord, shownRows, List.map_map]
  refine (List.mapM_map ..).trans (mapM_eq_ok fun field member => ?_)
  have isName : field.1 ∈ "Field" :: "Value" :: record.fieldTexts.map Prod.fst :=
    List.mem_cons_of_mem _ (List.mem_cons_of_mem _ (List.mem_map_of_mem member))
  have nameSeen := visible_name isName
  have textSeen := visible_textMarkup (isPlain_of_mem_fieldTexts plain member)
  change [field.1, textMarkup field.2].mapM visible = _
  simp only [List.mapM_cons, List.mapM_nil, nameSeen, textSeen]
  rfl

/-! ## The room of a record -/

/-- The names of the columns. -/
def columnNames : List Char × List Char :=
  ("Field".toList, "Value".toList)

/-- The rooms of the columns in which nothing of a record is broken. -/
def recordRooms (record : Record) : Nat × Nat :=
  roomsOf columnNames (shownRows record)

/-- The lines of a record below its title. -/
def recordLines (record : Record) : List String :=
  (grid (recordRooms record) columnNames (shownRows record)).map String.ofList

/-- The line with the root of the repository in the middle. -/
def rootLine (record : Record) : String :=
  String.ofList (centredLine (lineRoom (recordRooms record)) record.baseDir.toList)

theorem names_seen (record : Record) (title : String) :
    (ofRecord record title).heading.mapM visible = .ok [columnNames.1, columnNames.2] := by
  have first := @visible_name "Field" record List.mem_cons_self
  have second := @visible_name "Value" record (List.mem_cons_of_mem _ List.mem_cons_self)
  change ["Field", "Value"].mapM visible = _
  simp only [List.mapM_cons, List.mapM_nil, first, second]
  rfl

theorem isPrintable_shown (plain : IsPlain text) : IsPrintable (shown text).toList := by
  unfold shown
  split
  · intro character member
    obtain rfl := List.mem_singleton.mp member
    decide
  · exact plain.printable

theorem isPrintable_rows (plain : ∀ text ∈ record.texts, IsPlain text) :
    ∀ texts ∈ columnNames :: shownRows record, IsPrintable texts.1 ∧ IsPrintable texts.2 := by
  intro texts member
  rcases List.mem_cons.mp member with rfl | isRow
  · have first := @isPlain_of_mem_names "Field" record List.mem_cons_self
    have second := @isPlain_of_mem_names "Value" record (List.mem_cons_of_mem _ List.mem_cons_self)
    exact ⟨first.1.printable, second.1.printable⟩
  · obtain ⟨field, isField, rfl⟩ := List.mem_map.mp isRow
    have isName : field.1 ∈ "Field" :: "Value" :: record.fieldTexts.map Prod.fst :=
      List.mem_cons_of_mem _ (List.mem_cons_of_mem _ (List.mem_map_of_mem isField))
    exact ⟨(isPlain_of_mem_names isName).1.printable,
      isPrintable_shown (isPlain_of_mem_fieldTexts plain isField)⟩

theorem recordRooms_pos (record : Record) :
    0 < (recordRooms record).1 ∧ 0 < (recordRooms record).2 :=
  have names : columnNames.1.length = 5 ∧ columnNames.2.length = 5 := by decide
  have first : columnNames.1.length ≤ (recordRooms record).1 := length_le_longest List.mem_cons_self
  have second : columnNames.2.length ≤ (recordRooms record).2 :=
    length_le_longest List.mem_cons_self
  ⟨by omega, by omega⟩

/-- The root of the repository is one of the texts, and so there is room for it. -/
theorem length_baseDir_le (record : Record) :
    record.baseDir.toList.length ≤ lineRoom (recordRooms record) := by
  by_cases given : record.baseDir.isEmpty
  · rw [String.isEmpty_iff.mp given]
    exact Nat.zero_le _
  · have isShown : (shown record.baseDir).toList = record.baseDir.toList := by
      rw [shown, if_neg given]
    have shorter : (shown record.baseDir).toList.length ≤ (recordRooms record).2 :=
      length_le_longest (List.mem_cons_of_mem _ List.mem_cons_self)
    rw [isShown] at shorter
    rw [lineRoom]
    omega

/-! ## The whole table of a record -/

/-- A line on which a text stands alone.  The blanks at its end are not to be told from those around
it. -/
def StandsOn (line : String) (text : List Char) : Prop :=
  ∃ before after, line.toList = blanks before ++ Text.trimRight text ++ blanks after

theorem count_trimRight (text : List Char) : (Text.trimRight text).count '[' = text.count '[' := by
  have dropped : ∀ text : List Char, (text.dropWhile Text.isBlank).count '[' = text.count '[' := by
    intro text
    induction text with
    | nil => rfl
    | cons character rest inductionHypothesis =>
        rw [List.dropWhile_cons]
        split
        · next isBlank =>
            have other : character ≠ '[' := by
              rintro rfl
              exact absurd isBlank (by decide)
            rw [inductionHypothesis, List.count_cons_of_ne other]
        · rfl
  unfold Text.trimRight
  rw [List.count_reverse, dropped, List.count_reverse]

/-- Texts that stand alone on one line have the same brackets. -/
theorem count_eq_of_standsOn {line : String} {first second : List Char} (stands : StandsOn line first)
    (other : StandsOn line second) : first.count '[' = second.count '[' := by
  have counts : ∀ {text}, StandsOn line text → text.count '[' = line.toList.count '[' := by
    rintro text ⟨before, after, same⟩
    have noBracket : ∀ count, (blanks count).count '[' = 0 := fun count =>
      List.count_eq_zero.mpr fun member => absurd (List.eq_of_mem_replicate member) (by decide)
    rw [same, List.count_append, List.count_append, noBracket, noBracket, count_trimRight]
    omega
  rw [counts stands, counts other]

/-- What is printed of a record. -/
structure IsTableOf (record : Record) (result : Except Fault (List String)) : Prop where
  /-- Each field stands in its row as it is, below one line at the most. -/
  rows : ∀ lines, result = .ok lines → ∃ above, lines = above ++ recordLines record ∧
    above.length = if record.baseDir.isEmpty then 0 else 1
  untitled : record.baseDir = "" → result = .ok (recordLines record)
  titled : record.baseDir ≠ "" → ¬HoldsTag beginsTag record.baseDir.toList →
    result = .ok (rootLine record :: recordLines record)
  /-- The root stands above the rows as it is just where it has no tag. -/
  title_iff : record.baseDir ≠ "" →
    ((∃ line rest, result = .ok (line :: rest) ∧ StandsOn line record.baseDir.toList) ↔
      ¬HoldsTag beginsTag record.baseDir.toList)
  /-- Nothing but a closing tag in the root makes the table fail. -/
  failure : ∀ fault, result = .error fault →
    (∃ message, fault = .notMarkup message) ∧ HoldsTag (· = '/') record.baseDir.toList

/-- A line in the middle takes all of its room. -/
theorem length_centredLine {room : Nat} {title : List Char} (level : IsLevel title)
    (fits : title.length ≤ room) :
    IsLevel (centredLine room title) ∧ (centredLine room title).length = room := by
  obtain ⟨before, after, same, whole⟩ := centredLine_eq level fits
  have trimmed : IsLevel (Text.trimRight title) :=
    fun character member => level character (Text.mem_of_mem_trimRight member)
  rw [same]
  refine ⟨((isLevel_blanks before).append trimmed).append (isLevel_blanks after), ?_⟩
  rw [List.length_append, List.length_append, blanks, blanks, List.length_replicate,
    List.length_replicate, whole]

/-- The root as it is seen stands above the rows. -/
theorem lines_eq (plain : ∀ text ∈ record.texts, IsPlain text)
    (wide : lineRoom (recordRooms record) ≤ width) :
    (ofRecord record "").lines width = (visible record.baseDir).map fun title =>
      (if record.baseDir.isEmpty then []
        else wrapCentred (lineRoom (recordRooms record)) title).map
          (fun line => String.ofList (fitting width line)) ++ recordLines record := by
  obtain ⟨roomy, otherRoomy⟩ := recordRooms_pos record
  rw [lines_of_seen (names_seen record "") (rows_seen plain "") (isPrintable_rows plain)
    roomy otherRoomy wide, show (ofRecord record "").title = record.baseDir from rfl]
  simp only [List.map_append, List.map_map, Function.comp_def]
  rfl

theorem isTableOf_of_untitled (untitled : record.baseDir = "") :
    IsTableOf record (.ok (recordLines record)) := by
  refine ⟨fun lines isLines => ⟨[], (Except.ok.inj isLines).symm, ?_⟩, fun _ => rfl,
    fun given => absurd untitled given, fun given => absurd untitled given, nofun⟩
  rw [untitled]
  rfl

theorem isTableOf_of_closing {message : String} (given : record.baseDir ≠ "")
    (closes : HoldsTag (· = '/') record.baseDir.toList) :
    IsTableOf record (.error (.notMarkup message)) where
  rows := nofun
  untitled empty := absurd empty given
  titled _ noTag := absurd closes.of_closing noTag
  title_iff _ := ⟨fun ⟨_, _, isLines, _⟩ => absurd isLines nofun,
    fun noTag => absurd closes.of_closing noTag⟩
  failure _ isFault := ⟨⟨message, (Except.error.inj isFault).symm⟩, closes⟩

/-- A table is shown as it should be where what is left of the root stands above it. -/
theorem isTableOf_of_stripped {title : List Char} (root : IsPlain record.baseDir)
    (given : record.baseDir ≠ "") (stripped : IsStripped record.baseDir.toList title) :
    IsTableOf record
      (.ok (String.ofList (centredLine (lineRoom (recordRooms record)) title) ::
        recordLines record)) := by
  have isGiven : record.baseDir.isEmpty = false := by
    rwa [Bool.eq_false_iff, Ne, String.isEmpty_iff]
  have level : IsLevel title := fun character member =>
    root.printable.isLevel character (stripped.sublist.mem member)
  have stands : StandsOn (String.ofList (centredLine (lineRoom (recordRooms record)) title))
      title := by
    obtain ⟨before, after, same, -⟩ :=
      centredLine_eq level (stripped.sublist.length_le.trans (length_baseDir_le record))
    exact ⟨before, after, by rw [String.toList_ofList, same]⟩
  refine ⟨fun lines isLines => ⟨[_], (Except.ok.inj isLines).symm, by rw [isGiven]; rfl⟩,
    fun empty => absurd empty given, fun _ noTag => ?titled, fun _ => ⟨?shown, ?whole⟩, nofun⟩
  case titled =>
    rw [stripped.eq_of_not_holdsTag noTag]
    rfl
  case shown =>
    rintro ⟨line, rest, isLines, standsRoot⟩ holds
    obtain ⟨rfl, -⟩ := List.cons.inj (Except.ok.inj isLines)
    -- A tag takes a bracket with it, and the blanks around bring none back.
    have fewer := stripped.count_lt holds
    rw [count_eq_of_standsOn stands standsRoot] at fewer
    exact Nat.lt_irrefl _ fewer
  case whole =>
    intro noTag
    rw [stripped.eq_of_not_holdsTag noTag] at stands ⊢
    exact ⟨_, _, rfl, stands⟩

/-- **The table of a record shows its fields as they are**, whatever brackets are in them.  Its title
does so too, if it has no tag. -/
theorem lines_ofRecord (plain : ∀ text ∈ record.texts, IsPlain text)
    (wide : lineRoom (recordRooms record) ≤ width) :
    IsTableOf record ((ofRecord record "").lines width) := by
  have root : IsPlain record.baseDir := plain record.baseDir List.mem_cons_self
  rw [lines_eq plain wide]
  by_cases given : record.baseDir = ""
  case pos =>
    have nothing : visible record.baseDir = .ok [] := by rw [given]; rfl
    rw [nothing, String.isEmpty_iff.mpr given]
    exact isTableOf_of_untitled given
  case neg =>
    have isGiven : record.baseDir.isEmpty = false := by
      rwa [Bool.eq_false_iff, Ne, String.isEmpty_iff]
    rcases Markup.visible_cases root.unmarked root.isStill with
      ⟨title, sees, stripped⟩ | ⟨⟨message, fails⟩, closes⟩
    · have level : IsLevel title := fun character member =>
        root.printable.isLevel character (stripped.sublist.mem member)
      have fits := stripped.sublist.length_le.trans (length_baseDir_le record)
      obtain ⟨levelLine, length_eq⟩ := length_centredLine level fits
      have whole := fitting_eq_self levelLine (length_eq.le.trans wide)
      rw [sees, isGiven]
      simp only [Except.map, Bool.false_eq_true, if_false, wrapCentred_eq level fits,
        List.map_singleton, whole]
      exact isTableOf_of_stripped root given stripped
    · rw [fails]
      exact isTableOf_of_closing given closes

/-- A record with brackets in its root and in other fields, of which only those in the others are
tags. -/
def bracketed : Record where
  baseDir := "/srv/repo[1]"
  branch := ["fix/[red]", "main"]
  tags := ["[/]"]

/-- The law at work: tags in the fields are seen, and so are brackets in the title. -/
theorem lines_ofRecord_bracketed :
    (∀ text ∈ bracketed.texts, IsPlain text) ∧ lineRoom (recordRooms bracketed) ≤ 80 ∧
      (ofRecord bracketed "").lines 80 = .ok [
        "          /srv/repo[1]          ",
        "╭────────────┬─────────────────╮",
        "│ Field      │ Value           │",
        "├────────────┼─────────────────┤",
        "│ base_dir   │ /srv/repo[1]    │",
        "│ rel_dir    │ -               │",
        "│ remote_url │ -               │",
        "│ git_url    │ -               │",
        "│ hash       │ -               │",
        "│ short_hash │ -               │",
        "│ branch     │ fix/[red], main │",
        "│ tags       │ [/]             │",
        "│ timestamp  │ -               │",
        "╰────────────┴─────────────────╯"] := by
  have plain : ∀ text ∈ bracketed.texts, IsPlain text := by decide +kernel
  have wide : lineRoom (recordRooms bracketed) ≤ 80 := by decide +kernel
  have untagged : ¬HoldsTag beginsTag bracketed.baseDir.toList := by decide +kernel
  have printed := (lines_ofRecord plain wide).titled (by decide) untagged
  refine ⟨plain, wide, ?_⟩
  rw [printed]
  decide +kernel

/-- A tag in the root is not seen in the title, and a closing one leaves no table at all. -/
theorem root_not_shown :
    let tagged : Record := { baseDir := "/srv/[x]/repo" }
    let closing : Record := { baseDir := "/srv/[/red]" }
    (∀ text ∈ tagged.texts ++ closing.texts, IsPlain text) ∧
      lineRoom (recordRooms tagged) ≤ 80 ∧ lineRoom (recordRooms closing) ≤ 80 ∧
      (ofRecord tagged "").lines 80 =
        .ok ("          /srv//repo          " :: recordLines tagged) ∧
      ¬StandsOn "          /srv//repo          " tagged.baseDir.toList ∧
      (ofRecord closing "").lines 80 = .error (.notMarkup
        "closing tag '[/red]' at position 5 doesn't match any open tag") := by
  intro tagged closing
  have plain : ∀ text ∈ tagged.texts ++ closing.texts, IsPlain text := by decide +kernel
  have wide : lineRoom (recordRooms tagged) ≤ 80 := by decide +kernel
  have otherWide : lineRoom (recordRooms closing) ≤ 80 := by decide +kernel
  refine ⟨plain, wide, otherWide, ?_, fun stands => ?_, ?_⟩
  · have sees : visible tagged.baseDir = .ok "/srv//repo".toList := by decide +kernel
    have above : (wrapCentred (lineRoom (recordRooms tagged)) "/srv//repo".toList).map
        (fun line => String.ofList (fitting 80 line)) = ["          /srv//repo          "] := by
      decide +kernel
    rw [lines_eq (fun text isText => plain text (List.mem_append_left _ isText)) wide, sees]
    exact congrArg (fun above => Except.ok (above ++ recordLines tagged)) above
  · have self : StandsOn "          /srv//repo          " "/srv//repo".toList :=
      ⟨10, 10, by decide +kernel⟩
    exact absurd (count_eq_of_standsOn stands self) (by decide +kernel)
  · have fails : visible closing.baseDir = .error (.notMarkup
        "closing tag '[/red]' at position 5 doesn't match any open tag") := by decide +kernel
    rw [lines_eq (fun text isText => plain text (List.mem_append_right _ isText)) otherWide, fails]
    rfl

end Table
end Provenance
