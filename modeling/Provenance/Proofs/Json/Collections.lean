import Provenance.Proofs.Json.Denotes

/-!
Contract: JSON lists and dictionaries are read from what they are written as.

Owns:
- the steps of reading a list and a dictionary, as lemmas about `readItems` and `readEntries`;
- `readItems_draftItems` and `readEntries_draftEntries`: the parts behind the first one are read up to
  the closing bracket;
- `writes_list` and `writes_record`: a collection is read from its draft if its parts are.

Does **not** own: the induction over a value.
-/

set_option autoImplicit false

namespace Provenance.Json

open Data (Scalar Value Entries)

variable {style : Style} {depth : Nat} {value : Value}
  {text rest behind next close inner : List Char} {fuel : Nat} {name : String}
  {entries : List (String × Value)} {parts : Draft} {opening closing : Char}

/-! ## Separators and brackets -/

theorem ends_separator : Ends (style.separator depth ++ rest) := by
  obtain ⟨gap, separates, -⟩ := exists_separator style depth
  rw [separates, List.cons_append]
  exact ends_cons rfl (by decide) (by decide) (by decide)

/-- A separator is a comma to the reader, and nothing besides. -/
theorem skipSpace_separator (style : Style) (depth : Nat) (visible : skipSpace text = text) :
    ∃ next, skipSpace (style.separator depth ++ text) = ',' :: next ∧ skipSpace next = text := by
  obtain ⟨gap, separates, blank⟩ := exists_separator style depth
  refine ⟨gap ++ text, ?_, ?_⟩
  · rw [separates, List.cons_append, skipSpace_cons rfl]
  · rw [skipSpace_append blank, visible]

theorem length_separator_pos : 0 < (style.separator depth).length := by
  obtain ⟨gap, separates, -⟩ := exists_separator style depth
  rw [separates]
  exact Nat.succ_pos _

theorem isWhole_enclose (opens : style.Admits opening) (closes : style.Admits closing)
    (whole : parts.IsWhole style) : (enclose style depth opening closing parts).IsWhole style := by
  refine (Draft.IsWhole.andThen (Draft.isWhole_done ?_) whole).andThen (Draft.isWhole_done ?_)
  · intro character member
    rcases List.mem_cons.mp member with rfl | broken
    · exact opens
    · exact Style.admits_of_mem_lineBreak _ broken
  · intro character member
    rcases List.mem_append.mp member with broken | last
    · exact Style.admits_of_mem_lineBreak _ broken
    · rw [List.mem_singleton.mp last]
      exact closes

theorem enclose_text (style : Style) (depth : Nat) (opening closing : Char)
    (whole : parts.fault = none) :
    (enclose style depth opening closing parts).text =
      opening :: (style.lineBreak (depth + 1) ++
        (parts.text ++ (style.lineBreak depth ++ [closing]))) := by
  have opened : ((Draft.done (opening :: style.lineBreak (depth + 1))).andThen parts).fault =
      none := by
    rw [Draft.andThen]
    exact whole
  rw [enclose, Draft.andThen_text opened, Draft.andThen_text rfl]
  simp only [Draft.done, List.cons_append, List.append_assoc]

theorem ends_closing (style : Style) (depth : Nat) (isBracket : closing = ']' ∨ closing = '\x7d')
    (rest : List Char) : Ends (style.lineBreak depth ++ closing :: rest) := by
  refine ends_lineBreak ?_
  rcases isBracket with rfl | rfl <;>
    exact ends_cons rfl (by decide) (by decide) (by decide)

theorem skipSpace_lineBreak (style : Style) (depth : Nat) (visible : isSpace closing = false)
    (rest : List Char) : skipSpace (style.lineBreak depth ++ closing :: rest) = closing :: rest := by
  rw [skipSpace_append isSpace_of_mem_lineBreak, skipSpace_cons visible]

section Collections

variable [Text.DigitLimit]

/-! ## Steps of reading a list -/

theorem readValue_list {items : List Value} {inner : List Char} {first : Char} {more : List Char}
    (begins : skipSpace inner = first :: more) (notClosing : first ≠ ']')
    (reads : readItems fuel (first :: more) = .ok (items, rest)) :
    readValue (fuel + 1) ('[' :: inner) = .ok (.list items, rest) := by
  rw [readValue.eq_def]
  simp only [begins]
  split
  · next same => exact absurd (List.cons.inj same).1 notClosing
  · rw [reads]
    rfl

theorem readItems_last (reads : readValue fuel text = .ok (value, behind))
    (closes : skipSpace behind = ']' :: rest) :
    readItems (fuel + 1) text = .ok ([value], rest) := by
  simp only [readItems, reads, bind, Except.bind, closes]
  rfl

theorem readItems_more {items : List Value} (reads : readValue fuel text = .ok (value, behind))
    (goesOn : skipSpace behind = ',' :: next)
    (readsMore : readItems fuel (skipSpace next) = .ok (items, rest)) :
    readItems (fuel + 1) text = .ok (value :: items, rest) := by
  simp only [readItems, reads, bind, Except.bind, goesOn, readsMore]
  rfl

/-! ## The items of a list -/

theorem draftItems_cons_text {item : Value} {items : List Value}
    (written : (draftAt style depth item).Writes style item) :
    (draftItems style depth (item :: items)).text =
      style.separator depth ++
        ((draftAt style depth item).text ++ (draftItems style depth items).text) := by
  have separated : (Draft.done (style.separator depth)).IsWhole style :=
    Draft.isWhole_done Style.admits_of_mem_separator
  rw [draftItems, Draft.andThen_text (separated.andThen written.toIsWhole).unstopped,
    Draft.andThen_text separated.unstopped, List.append_assoc]
  rfl

theorem isWhole_draftItems {items : List Value}
    (written : ∀ item ∈ items, (draftAt style depth item).Writes style item) :
    (draftItems style depth items).IsWhole style := by
  induction items with
  | nil => exact Draft.isWhole_done fun _ member => absurd member List.not_mem_nil
  | cons item rest inductionHypothesis =>
      obtain ⟨first, others⟩ := List.forall_mem_cons.mp written
      exact ((Draft.isWhole_done Style.admits_of_mem_separator).andThen first.toIsWhole).andThen
        (inductionHypothesis others)

theorem ends_draftItems {items : List Value} (ends : Ends close)
    (written : ∀ item ∈ items, (draftAt style depth item).Writes style item) :
    Ends ((draftItems style depth items).text ++ close) := by
  cases items with
  | nil => exact ends
  | cons item rest =>
      rw [draftItems_cons_text (written item List.mem_cons_self), List.append_assoc]
      exact ends_separator

/-- The items of a list are read up to its closing bracket. -/
theorem readItems_draftItems {items : List Value} (fuel : Nat) (denotes : Denotes text value)
    (written : ∀ item ∈ items, (draftAt style depth item).Writes style item)
    (closes : skipSpace close = ']' :: rest) (ends : Ends close)
    (enough : 2 * (text ++ (draftItems style depth items).text).length + 1 ≤ fuel) :
    readItems fuel (text ++ ((draftItems style depth items).text ++ close)) =
      .ok (value :: items, rest) := by
  induction items generalizing text value fuel with
  | nil =>
      obtain ⟨fuel, rfl⟩ : ∃ less, fuel = less + 1 := ⟨fuel - 1, by omega⟩
      rw [List.length_append] at enough
      exact readItems_last (denotes.reads fuel close (by omega) ends) closes
  | cons item others inductionHypothesis =>
      obtain ⟨fuel, rfl⟩ : ∃ less, fuel = less + 1 := ⟨fuel - 1, by omega⟩
      have behind := ends_draftItems ends written
      obtain ⟨first, more⟩ := List.forall_mem_cons.mp written
      obtain ⟨next, goesOn, isNext⟩ := skipSpace_separator style depth
        (first.denotes.skipSpace_eq ((draftItems style depth others).text ++ close))
      rw [draftItems_cons_text first] at enough behind ⊢
      simp only [List.length_append, List.append_assoc] at enough behind ⊢
      have separated := @length_separator_pos style depth
      have begun := denotes.length_pos
      refine readItems_more (denotes.reads fuel _ (by omega) behind) goesOn ?_
      rw [isNext]
      exact inductionHypothesis fuel first.denotes more (by rw [List.length_append]; omega)

/-- **A list whose items are read from what they are written as is so read too.** -/
theorem writes_list {items : List Value}
    (written : ∀ item ∈ items, ∀ depth, (draftAt style depth item).Writes style item) :
    (draftAt style depth (.list items)).Writes style (.list items) := by
  have opens : style.Admits '[' := Style.admits_of_ascii (by decide) (by decide)
  have shuts : style.Admits ']' := Style.admits_of_ascii (by decide) (by decide)
  cases items with
  | nil =>
      refine ⟨Draft.isWhole_done fun character member => ?_, ⟨'[', [']'], rfl, by decide⟩, ?_⟩
      · rcases List.mem_cons.mp member with rfl | last
        · exact opens
        · rw [List.mem_singleton.mp last]
          exact shuts
      · intro fuel rest enough ends
        obtain ⟨fuel, rfl⟩ : ∃ less, fuel = less + 1 :=
          ⟨fuel - 1, by rw [show (draftAt style depth (.list [])).text = ['[', ']'] from rfl,
            List.length_cons] at enough; omega⟩
        rfl
  | cons item others =>
      obtain ⟨first, more⟩ := List.forall_mem_cons.mp written
      have first := first (depth + 1)
      have more := fun item member => more item member (depth + 1)
      have parts := first.toIsWhole.andThen (isWhole_draftItems more)
      have shape := enclose_text style depth '[' ']' parts.unstopped
      rw [Draft.andThen_text first.unstopped] at shape
      refine ⟨isWhole_enclose opens shuts parts, ⟨'[', _, shape, by decide⟩, ?_⟩
      intro fuel rest enough ends
      rw [draftAt, shape] at enough ⊢
      simp only [List.length_cons, List.length_append] at enough
      obtain ⟨fuel, rfl⟩ : ∃ less, fuel = less + 1 := ⟨fuel - 1, by omega⟩
      obtain ⟨lead, behind, text_eq, isLead⟩ := first.denotes.begins
      have items := readItems_draftItems fuel first.denotes more
        (skipSpace_lineBreak style depth rfl rest) (ends_closing style depth (.inl rfl) rest)
        (by rw [List.length_append]; omega)
      simp only [List.cons_append, List.append_assoc, List.nil_append]
      rw [text_eq, List.cons_append] at items ⊢
      refine readValue_list ?_ isLead.2.1 items
      rw [skipSpace_append isSpace_of_mem_lineBreak, skipSpace_cons isLead.1]

/-! ## Dictionaries -/

theorem readName_writeText (asciiOnly : Bool) (denotes : Denotes text value) (rest : List Char) :
    readName (writeText asciiOnly name ++ (':' :: ' ' :: (text ++ rest))) =
      .ok (name, text ++ rest) := by
  have blank : skipSpace (' ' :: (text ++ rest)) = text ++ rest := by
    rw [← List.singleton_append, skipSpace_append (List.forall_mem_singleton.mpr rfl),
      denotes.skipSpace_eq]
  rw [writeText, List.append_assoc, List.cons_append, List.singleton_append, readName,
    readText_flatMap_escape]
  simp only [bind, Except.bind, skipSpace_cons (rfl : isSpace ':' = false), blank,
    String.ofList_toList]
  rfl

theorem readEntries_last (named : readName text = .ok (name, inner))
    (reads : readValue fuel inner = .ok (value, behind))
    (closes : skipSpace behind = '\x7d' :: rest) :
    readEntries (fuel + 1) text = .ok ([(.text name, value)], rest) := by
  simp only [readEntries, named, reads, bind, Except.bind, closes]
  rfl

theorem readEntries_more {found : List (Scalar × Value)} (named : readName text = .ok (name, inner))
    (reads : readValue fuel inner = .ok (value, behind)) (goesOn : skipSpace behind = ',' :: next)
    (readsMore : readEntries fuel (skipSpace next) = .ok (found, rest)) :
    readEntries (fuel + 1) text = .ok ((.text name, value) :: found, rest) := by
  simp only [readEntries, named, reads, bind, Except.bind, goesOn, readsMore]
  rfl

theorem readValue_dict (inner : List Char) {found : List (Scalar × Value)} {more : List Char}
    (begins : skipSpace inner = '"' :: more)
    (reads : readEntries fuel ('"' :: more) = .ok (found, rest)) :
    readValue (fuel + 1) ('\x7b' :: inner) = .ok (.dict (Entries.ofList found), rest) := by
  rw [readValue.eq_def]
  simp only [begins]
  change (readEntries fuel ('"' :: more) >>= fun _ => _) = _
  rw [reads]
  rfl

/-- What an entry is written as: its name, a colon and a blank, its value. -/
def entryText (style : Style) (depth : Nat) (name : String) (value : Value) : List Char :=
  writeText style.asciiOnly name ++ (':' :: ' ' :: (draftAt style depth value).text)

theorem skipSpace_entryText (style : Style) (depth : Nat) (name : String) (value : Value)
    (rest : List Char) :
    skipSpace (entryText style depth name value ++ rest) = entryText style depth name value ++ rest :=
  skipSpace_cons rfl

theorem length_entryText :
    (draftAt style depth value).text.length + 2 ≤ (entryText style depth name value).length := by
  rw [entryText, List.length_append]
  simp

theorem readName_entryText (written : (draftAt style depth value).Writes style value)
    (rest : List Char) :
    readName (entryText style depth name value ++ rest) =
      .ok (name, (draftAt style depth value).text ++ rest) := by
  rw [entryText, List.append_assoc]
  exact readName_writeText style.asciiOnly written.denotes rest

theorem writeKey_text (isFirst : Bool) :
    writeKey style depth isFirst (.text name) =
      .done ((if isFirst then [] else style.separator depth) ++
        writeText style.asciiOnly name ++ [':', ' ']) := rfl

theorem isWhole_writeKey (isFirst : Bool) :
    (writeKey style depth isFirst (.text name)).IsWhole style := by
  rw [writeKey_text]
  refine Draft.isWhole_done fun character member => ?_
  rcases List.mem_append.mp member with before | colon
  · rcases List.mem_append.mp before with separator | inText
    · split at separator
      · cases separator
      · exact Style.admits_of_mem_separator _ separator
    · exact Style.admits_of_mem_writeText _ inText
  · rcases List.mem_cons.mp colon with rfl | blank
    · exact Style.admits_of_ascii (by decide) (by decide)
    · rw [List.mem_singleton.mp blank]
      exact Style.admits_of_ascii (by decide) (by decide)

theorem draftEntries_cons_text
    (written : (draftAt style depth value).Writes style value) :
    (draftEntries style depth (Entries.named ((name, value) :: entries))).text =
      style.separator depth ++ (entryText style depth name value ++
        (draftEntries style depth (Entries.named entries)).text) := by
  have key := @isWhole_writeKey style depth name _ false
  have unfolded : draftEntries style depth (Entries.named ((name, value) :: entries)) =
      ((writeKey style depth false (.text name)).andThen (draftAt style depth value)).andThen
        (draftEntries style depth (Entries.named entries)) := rfl
  rw [unfolded, Draft.andThen_text (key.andThen written.toIsWhole).unstopped,
    Draft.andThen_text key.unstopped, writeKey_text, entryText]
  simp [Draft.done]

theorem isWhole_draftEntries
    (written : ∀ entry ∈ entries, (draftAt style depth entry.2).Writes style entry.2) :
    (draftEntries style depth (Entries.named entries)).IsWhole style := by
  induction entries with
  | nil => exact Draft.isWhole_done fun _ member => absurd member List.not_mem_nil
  | cons entry rest inductionHypothesis =>
      obtain ⟨first, others⟩ := List.forall_mem_cons.mp written
      exact ((isWhole_writeKey false).andThen first.toIsWhole).andThen (inductionHypothesis others)

theorem ends_draftEntries (ends : Ends close)
    (written : ∀ entry ∈ entries, (draftAt style depth entry.2).Writes style entry.2) :
    Ends ((draftEntries style depth (Entries.named entries)).text ++ close) := by
  cases entries with
  | nil => exact ends
  | cons entry rest =>
      rw [draftEntries_cons_text (written entry List.mem_cons_self), List.append_assoc]
      exact ends_separator

/-- The entries of a dictionary are read up to its closing brace. -/
theorem readEntries_draftEntries (fuel : Nat) (name : String)
    (first : (draftAt style depth value).Writes style value)
    (written : ∀ entry ∈ entries, (draftAt style depth entry.2).Writes style entry.2)
    (closes : skipSpace close = '\x7d' :: rest) (ends : Ends close)
    (enough : 2 * (entryText style depth name value ++
      (draftEntries style depth (Entries.named entries)).text).length + 1 ≤ fuel) :
    readEntries fuel (entryText style depth name value ++
        ((draftEntries style depth (Entries.named entries)).text ++ close)) =
      .ok (Entries.named ((name, value) :: entries), rest) := by
  induction entries generalizing name value fuel with
  | nil =>
      obtain ⟨fuel, rfl⟩ : ∃ less, fuel = less + 1 := ⟨fuel - 1, by omega⟩
      have shorter := @length_entryText style depth value name _
      rw [List.length_append] at enough
      exact readEntries_last (readName_entryText first _)
        (first.denotes.reads fuel close (by omega) ends) closes
  | cons entry others inductionHypothesis =>
      obtain ⟨fuel, rfl⟩ : ∃ less, fuel = less + 1 := ⟨fuel - 1, by omega⟩
      obtain ⟨nextName, nextValue⟩ := entry
      have behind := ends_draftEntries ends written
      obtain ⟨second, more⟩ := List.forall_mem_cons.mp written
      obtain ⟨next, goesOn, isNext⟩ := skipSpace_separator style depth
        (skipSpace_entryText style depth nextName nextValue
          ((draftEntries style depth (Entries.named others)).text ++ close))
      rw [draftEntries_cons_text second] at enough behind ⊢
      simp only [List.length_append, List.append_assoc] at enough behind ⊢
      have shorter := @length_entryText style depth value name _
      have separated := @length_separator_pos style depth
      refine readEntries_more (readName_entryText first _)
        (first.denotes.reads fuel _ (by omega) behind) goesOn ?_
      rw [isNext]
      exact inductionHypothesis fuel nextName second more (by rw [List.length_append]; omega)

/-- **A dictionary whose values are read from what they are written as is so read too**, its keys in
their order. -/
theorem writes_record (distinct : (entries.map Prod.fst).Nodup)
    (written : ∀ entry ∈ entries, ∀ depth, (draftAt style depth entry.2).Writes style entry.2) :
    (draftAt style depth (.record entries)).Writes style (.record entries) := by
  have opens : style.Admits '\x7b' := Style.admits_of_ascii (by decide) (by decide)
  have shuts : style.Admits '\x7d' := Style.admits_of_ascii (by decide) (by decide)
  cases entries with
  | nil =>
      refine ⟨Draft.isWhole_done fun character member => ?_, ⟨'\x7b', ['\x7d'], rfl, by decide⟩, ?_⟩
      · rcases List.mem_cons.mp member with rfl | last
        · exact opens
        · rw [List.mem_singleton.mp last]
          exact shuts
      · intro fuel rest enough ends
        obtain ⟨fuel, rfl⟩ : ∃ less, fuel = less + 1 :=
          ⟨fuel - 1, by rw [show (draftAt style depth (.record [])).text = ['\x7b', '\x7d'] from rfl,
            List.length_cons] at enough; omega⟩
        rfl
  | cons entry others =>
      obtain ⟨name, value⟩ := entry
      obtain ⟨first, more⟩ := List.forall_mem_cons.mp written
      have first : (draftAt style (depth + 1) value).Writes style value := first (depth + 1)
      have more := fun entry member => more entry member (depth + 1)
      have key := @isWhole_writeKey style (depth + 1) name _ true
      have parts := (key.andThen first.toIsWhole).andThen (isWhole_draftEntries more)
      have shape := enclose_text style depth '\x7b' '\x7d' parts.unstopped
      have head : ((writeKey style (depth + 1) true (.text name)).andThen
          (draftAt style (depth + 1) value)).text = entryText style (depth + 1) name value := by
        rw [Draft.andThen_text key.unstopped, writeKey_text, entryText]
        simp [Draft.done]
      rw [Draft.andThen_text (key.andThen first.toIsWhole).unstopped, head] at shape
      have unfolded : draftAt style depth (.record ((name, value) :: others)) =
        enclose style depth '\x7b' '\x7d'
          (((writeKey style (depth + 1) true (.text name)).andThen
            (draftAt style (depth + 1) value)).andThen
              (draftEntries style (depth + 1) (Entries.named others))) := rfl
      rw [unfolded]
      refine ⟨isWhole_enclose opens shuts parts, ⟨'\x7b', _, shape, by decide⟩, ?_⟩
      intro fuel rest enough ends
      rw [shape] at enough ⊢
      simp only [List.length_cons, List.length_append] at enough
      obtain ⟨fuel, rfl⟩ : ∃ less, fuel = less + 1 := ⟨fuel - 1, by omega⟩
      have entries := readEntries_draftEntries fuel name first more
        (skipSpace_lineBreak style depth rfl rest) (ends_closing style depth (.inr rfl) rest)
        (by rw [List.length_append]; omega)
      simp only [List.cons_append, List.append_assoc, List.nil_append]
      have reads := readValue_dict (style.lineBreak (depth + 1) ++ _) (by
        rw [skipSpace_append isSpace_of_mem_lineBreak, skipSpace_entryText]
        rfl) entries
      rw [Entries.ofList_named distinct] at reads
      exact reads

end Collections
end Provenance.Json
