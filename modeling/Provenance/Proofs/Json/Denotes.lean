import Provenance.Proofs.Data.Plain
import Provenance.Proofs.Json.Number
import Provenance.Proofs.Json.Text

/-!
Contract: what it is for a JSON text to be read as a value, and the texts of scalars.

Owns:
- `Denotes`, a text that is read as a value whatever stands behind it;
- `Style.Admits`, the characters that a style writes;
- `Draft.Writes`, a draft that is whole, of such characters, and read as a value;
- `writes_null` to `writes_text`: so is the draft of every scalar that has a form.

Does **not** own: lists and dictionaries.

## Why a text is read with room to spare

The reader is given two units of fuel a character.  `Denotes` asks for no less for the text alone, so
that the parts of a collection can be read with what the whole was given.
-/

set_option autoImplicit false

namespace Provenance.Json

open Data (Value)

variable {style : Style} {depth : Nat} {value : Value} {text rest : List Char}

/-! ## White space -/

theorem skipSpace_append {gap : List Char} (blank : ∀ character ∈ gap, isSpace character) :
    skipSpace (gap ++ text) = skipSpace text :=
  List.dropWhile_append_of_pos blank

theorem skipSpace_cons {first : Char} (visible : isSpace first = false) :
    skipSpace (first :: text) = first :: text := by
  simp [skipSpace, visible]

theorem isSpace_of_mem_lineBreak : ∀ character ∈ style.lineBreak depth, isSpace character := by
  intro character member
  unfold Style.lineBreak at member
  split at member
  · rcases List.mem_cons.mp member with rfl | blank
    · rfl
    · rw [List.eq_of_mem_replicate blank]
      rfl
  · cases member

/-! ## Texts that are read as a value -/

/-- Between the parts of a value stands a comma, then white space. -/
theorem exists_separator (style : Style) (depth : Nat) :
    ∃ gap, style.separator depth = ',' :: gap ∧ ∀ character ∈ gap, isSpace character := by
  unfold Style.separator
  split
  · exact ⟨_, rfl, isSpace_of_mem_lineBreak⟩
  · exact ⟨[' '], rfl, List.forall_mem_singleton.mpr rfl⟩

theorem ends_cons {next : Char} (digit : isDigit next = false) (point : next ≠ '.')
    (small : next ≠ 'e') (large : next ≠ 'E') : Ends (next :: rest) := by
  intro character member
  obtain rfl := Option.some.inj member
  exact ⟨digit, point, small, large⟩

/-- What is behind the last part of a value ends a number. -/
theorem ends_lineBreak {closing : Char} (ends : Ends (closing :: rest)) :
    Ends (style.lineBreak depth ++ closing :: rest) := by
  unfold Style.lineBreak
  split
  · exact ends_cons rfl (by decide) (by decide) (by decide)
  · exact ends

/-- A character that a value can begin with: no white space, no closing bracket, no byte order
mark. -/
def IsLead (character : Char) : Prop :=
  isSpace character = false ∧ character ≠ ']' ∧ character.toNat ≠ 0xfeff

instance : DecidablePred IsLead :=
  fun _ => inferInstanceAs (Decidable (_ ∧ _))

theorem isDigit_iff {character : Char} :
    isDigit character = true ↔ 48 ≤ character.toNat ∧ character.toNat ≤ 57 := by
  rw [isDigit, Bool.and_eq_true, decide_eq_true_eq, decide_eq_true_eq]
  exact Iff.rfl

theorem isLead_of_isDigit {digit : Char} (isDigit : isDigit digit = true) : IsLead digit := by
  refine ⟨?_, digit_ne isDigit rfl, ?_⟩
  · have blanks := And.intro (digit_ne isDigit (by decide : Json.isDigit ' ' = false))
      (And.intro (digit_ne isDigit (by decide : Json.isDigit '\t' = false))
        (And.intro (digit_ne isDigit (by decide : Json.isDigit '\n' = false))
          (digit_ne isDigit (by decide : Json.isDigit '\r' = false))))
    simp [isSpace, blanks]
  · have := isDigit_iff.mp isDigit
    omega

section Denoting

variable [Text.DigitLimit]

/-- A text that is read as a value, whatever stands behind it. -/
structure Denotes (text : List Char) (value : Value) : Prop where
  begins : ∃ first more, text = first :: more ∧ IsLead first
  reads : ∀ fuel rest, 2 * text.length ≤ fuel → Ends rest →
    readValue fuel (text ++ rest) = .ok (value, rest)

namespace Denotes

theorem length_pos (denotes : Denotes text value) : 0 < text.length := by
  obtain ⟨first, more, rfl, -⟩ := denotes.begins
  exact Nat.succ_pos _

theorem skipSpace_eq (denotes : Denotes text value) (rest : List Char) :
    skipSpace (text ++ rest) = text ++ rest := by
  obtain ⟨first, more, rfl, visible, -⟩ := denotes.begins
  exact skipSpace_cons visible

end Denotes
end Denoting

/-! ## Drafts -/

/-- The characters that a style writes: none below the blank but its own line feeds, and none
beyond ASCII where it keeps to that. -/
def Style.Admits (style : Style) (character : Char) : Prop :=
  (32 ≤ character.toNat ∨ character = '\n' ∧ style.indent.isSome) ∧
    (style.asciiOnly → character.toNat < 128)

/-- A draft that is whole, of characters that the style writes. -/
structure Draft.IsWhole (style : Style) (draft : Draft) : Prop where
  unstopped : draft.fault = none
  admitted : ∀ character ∈ draft.text, style.Admits character

theorem Draft.andThen_text {first second : Draft} (whole : first.fault = none) :
    (first.andThen second).text = first.text ++ second.text := by
  rw [andThen, whole]

theorem Draft.IsWhole.andThen {first second : Draft} (whole : first.IsWhole style)
    (follows : second.IsWhole style) : (first.andThen second).IsWhole style where
  unstopped := by rw [Draft.andThen, whole.unstopped]; exact follows.unstopped
  admitted := by
    rw [Draft.andThen_text whole.unstopped]
    intro character member
    exact (List.mem_append.mp member).elim (whole.admitted _) (follows.admitted _)

theorem Draft.isWhole_done (admitted : ∀ character ∈ text, style.Admits character) :
    (Draft.done text).IsWhole style :=
  ⟨rfl, admitted⟩

/-- A draft that is whole and is read as the value. -/
structure Draft.Writes [Text.DigitLimit] (style : Style) (draft : Draft) (value : Value) : Prop
    extends draft.IsWhole style where
  denotes : Denotes draft.text value

/-! ## Characters that are written -/

theorem Style.admits_of_ascii {character : Char} (visible : 32 ≤ character.toNat)
    (ascii : character.toNat < 128) : style.Admits character :=
  ⟨.inl visible, fun _ => ascii⟩

/-- Visible ASCII characters are written in every style. -/
theorem Style.admits_of_all {letters : List Char}
    (ascii : letters.all (fun letter => 32 ≤ letter.toNat && letter.toNat < 128) = true) :
    ∀ letter ∈ letters, style.Admits letter := by
  intro letter member
  have isAscii := List.all_eq_true.mp ascii letter member
  rw [Bool.and_eq_true, decide_eq_true_eq, decide_eq_true_eq] at isAscii
  exact admits_of_ascii isAscii.1 isAscii.2

theorem Style.admits_of_mem_lineBreak : ∀ character ∈ style.lineBreak depth,
    style.Admits character := by
  intro character member
  unfold Style.lineBreak at member
  split at member
  · next width indented =>
      rcases List.mem_cons.mp member with rfl | blank
      · exact ⟨.inr ⟨rfl, by rw [indented]; rfl⟩, fun _ => by decide⟩
      · rw [List.eq_of_mem_replicate blank]
        exact admits_of_ascii (by decide) (by decide)
  · cases member

theorem Style.admits_of_mem_separator : ∀ character ∈ style.separator depth,
    style.Admits character := by
  intro character member
  have comma : style.Admits ',' := admits_of_ascii (by decide) (by decide)
  unfold Style.separator at member
  split at member
  · rcases List.mem_cons.mp member with rfl | broken
    · exact comma
    · exact admits_of_mem_lineBreak _ broken
  · rcases List.mem_cons.mp member with rfl | blank
    · exact comma
    · rw [List.mem_singleton.mp blank]
      exact admits_of_ascii (by decide) (by decide)

theorem exists_digit_of_mem_toDigits {base number : Nat} {digit : Char} (large : 1 < base)
    (member : digit ∈ Nat.toDigits base number) : ∃ value < base, digit = Nat.digitChar value := by
  induction number using Nat.strong_induction_on with
  | h number inductionHypothesis =>
      by_cases small : number < base
      · rw [Nat.toDigits_of_lt_base small] at member
        exact ⟨number, small, List.mem_singleton.mp member⟩
      · rw [Nat.toDigits_of_base_le large (Nat.le_of_not_lt small), List.mem_append] at member
        rcases member with earlier | last
        · exact inductionHypothesis _ (Nat.div_lt_self (by omega) large) earlier
        · exact ⟨_, Nat.mod_lt _ (by omega), List.mem_singleton.mp last⟩

theorem Style.admits_of_mem_toDigits {base number : Nat} (large : 1 < base) (bounded : base ≤ 16) :
    ∀ digit ∈ Nat.toDigits base number, style.Admits digit := by
  have ascii : ∀ value < 16, 32 ≤ (Nat.digitChar value).toNat ∧
      (Nat.digitChar value).toNat < 128 := by decide
  intro digit member
  obtain ⟨value, small, rfl⟩ := exists_digit_of_mem_toDigits large member
  have := ascii value (Nat.lt_of_lt_of_le small bounded)
  exact admits_of_ascii this.1 this.2

theorem Style.admits_of_mem_unitEscape {unit : Nat} :
    ∀ character ∈ unitEscape unit, style.Admits character := by
  intro character member
  rcases List.mem_cons.mp member with rfl | later
  · exact admits_of_ascii (by decide) (by decide)
  rcases List.mem_cons.mp later with rfl | digits
  · exact admits_of_ascii (by decide) (by decide)
  rcases List.mem_append.mp digits with filled | digit
  · rw [List.eq_of_mem_replicate filled]
    exact admits_of_ascii (by decide) (by decide)
  · exact admits_of_mem_toDigits (by decide) (by decide) _ digit

theorem Style.admits_of_mem_escape {character : Char} :
    ∀ written ∈ escape style.asciiOnly character, style.Admits written := by
  have letters : ∀ letter ∈ ['\\', '"', '\\', 'n', 'r', 't', 'b', 'f'], style.Admits letter :=
    admits_of_all (by decide)
  intro written member
  have way := isEscape_escape style.asciiOnly character
  generalize escape style.asciiOnly character = text at way member
  cases way with
  | @letter letter known _ =>
      rcases List.mem_cons.mp member with rfl | last
      · exact letters _ List.mem_cons_self
      · rw [List.mem_singleton.mp last]
        exact letters _ (List.mem_cons_of_mem _ known)
  | unit => exact admits_of_mem_unitEscape _ member
  | pair =>
      exact (List.mem_append.mp member).elim (admits_of_mem_unitEscape _)
        (admits_of_mem_unitEscape _)
  | raw _ _ visible ascii =>
      rw [List.mem_singleton.mp member]
      exact ⟨.inl visible, ascii⟩

/-- A written text is of characters that the style writes. -/
theorem Style.admits_of_mem_writeText {name : String} :
    ∀ character ∈ writeText style.asciiOnly name, style.Admits character := by
  have mark : style.Admits '"' := admits_of_ascii (by decide) (by decide)
  intro character member
  rcases List.mem_cons.mp member with rfl | later
  · exact mark
  rcases List.mem_append.mp later with inner | last
  · obtain ⟨source, -, written⟩ := List.mem_flatMap.mp inner
    exact admits_of_mem_escape _ written
  · rw [List.mem_singleton.mp last]
    exact mark

theorem Style.admits_of_mem_toString {value : Int} :
    ∀ character ∈ (toString value).toList, style.Admits character := by
  cases value with
  | ofNat number =>
      rw [toList_toString_ofNat]
      exact admits_of_mem_toDigits (by decide) (by decide)
  | negSucc number =>
      rw [toList_toString_negSucc]
      intro character member
      rcases List.mem_cons.mp member with rfl | digit
      · exact admits_of_ascii (by decide) (by decide)
      · exact admits_of_mem_toDigits (by decide) (by decide) _ digit

/-! ## Scalars -/

section Scalars

variable [Text.DigitLimit]

theorem readValue_of_simple {fuel : Nat} {first : Char} {more : List Char} (mark : first ≠ '"')
    (bracket : first ≠ '[') (brace : first ≠ '\x7b') :
    readValue (fuel + 1) (first :: more) = readSimple (first :: more) := by
  rw [readValue.eq_def]
  grind

/-- A simple value is read where a value may stand. -/
theorem denotes_of_readSimple {first : Char} {more : List Char} (lead : IsLead first)
    (mark : first ≠ '"') (bracket : first ≠ '[') (brace : first ≠ '\x7b')
    (reads : ∀ rest, Ends rest → readSimple (first :: more ++ rest) = .ok (value, rest)) :
    Denotes (first :: more) value where
  begins := ⟨first, more, rfl, lead⟩
  reads := by
    intro fuel rest enough ends
    obtain ⟨fuel, rfl⟩ : ∃ less, fuel = less + 1 :=
      ⟨fuel - 1, by rw [List.length_cons] at enough; omega⟩
    rw [List.cons_append, readValue_of_simple mark bracket brace]
    exact reads rest ends

theorem denotes_writeText (asciiOnly : Bool) (text : String) :
    Denotes (writeText asciiOnly text) (.text text) where
  begins := ⟨'"', _, rfl, by decide⟩
  reads := by
    intro fuel rest enough ends
    obtain ⟨fuel, rfl⟩ : ∃ less, fuel = less + 1 :=
      ⟨fuel - 1, by simp only [writeText, List.cons_append, List.length_cons] at enough; omega⟩
    rw [writeText, List.append_assoc, List.cons_append, readValue]
    simp only [List.cons_append, List.nil_append]
    rw [readText_flatMap_escape]
    change Except.ok (Value.text (String.ofList text.toList), rest) = _
    rw [String.ofList_toList]

theorem denotes_toString {value : Int} (short : Text.isTooLong value = false) :
    Denotes (toString value).toList (.int value) := by
  have reads : ∀ rest, Ends rest →
      readSimple ((toString value).toList ++ rest) = .ok (.int value, rest) :=
    fun rest ends => readSimple_toString short ends
  cases value with
  | ofNat number =>
      obtain ⟨digit, others, written, isDigit⟩ := exists_toDigits_eq_cons number
      rw [toList_toString_ofNat, written] at reads ⊢
      exact denotes_of_readSimple (isLead_of_isDigit isDigit) (digit_ne isDigit rfl)
        (digit_ne isDigit rfl) (digit_ne isDigit rfl) reads
  | negSucc number =>
      rw [toList_toString_negSucc] at reads ⊢
      exact denotes_of_readSimple (by decide) (by decide) (by decide) (by decide) reads

theorem draftAt_int {value : Int} (short : Text.isTooLong value = false) :
    draftAt style depth (.int value) = .done (toString value).toList := by
  rw [draftAt, writeScalar, wholeText, if_neg (by rw [short]; decide), Draft.ofResult]

theorem writes_int {value : Int} (short : Text.isTooLong value = false) :
    (draftAt style depth (.int value)).Writes style (.int value) := by
  rw [draftAt_int short]
  exact ⟨Draft.isWhole_done Style.admits_of_mem_toString, denotes_toString short⟩

theorem writes_text (text : String) :
    (draftAt style depth (.text text)).Writes style (.text text) :=
  ⟨Draft.isWhole_done Style.admits_of_mem_writeText, denotes_writeText style.asciiOnly text⟩

theorem writes_word {first : Char} {more : List Char}
    (written : draftAt style depth value = .done (first :: more))
    (ascii : (first :: more).all (fun letter => 32 ≤ letter.toNat && letter.toNat < 128) = true)
    (lead : IsLead first)
    (mark : first ≠ '"') (bracket : first ≠ '[') (brace : first ≠ '\x7b')
    (reads : ∀ rest, Ends rest → readSimple (first :: more ++ rest) = .ok (value, rest)) :
    (draftAt style depth value).Writes style value := by
  rw [written]
  exact ⟨Draft.isWhole_done (Style.admits_of_all ascii),
    denotes_of_readSimple lead mark bracket brace reads⟩

theorem writes_null : (draftAt style depth .null).Writes style .null := by
  have written : draftAt style depth .null = .done ['n', 'u', 'l', 'l'] := rfl
  exact writes_word written (by decide) (by decide) (by decide) (by decide) (by decide)
    fun _ _ => rfl

theorem writes_bool (value : Bool) :
    (draftAt style depth (.bool value)).Writes style (.bool value) := by
  cases value with
  | true =>
      have written : draftAt style depth (.bool true) = .done ['t', 'r', 'u', 'e'] := rfl
      exact writes_word written (by decide) (by decide) (by decide) (by decide) (by decide)
        fun _ _ => rfl
  | false =>
      have written : draftAt style depth (.bool false) = .done ['f', 'a', 'l', 's', 'e'] := rfl
      exact writes_word written (by decide) (by decide) (by decide) (by decide) (by decide)
        fun _ _ => rfl

end Scalars
end Provenance.Json
