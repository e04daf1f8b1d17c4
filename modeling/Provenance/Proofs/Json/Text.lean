import Mathlib.Data.List.Basic
import Mathlib.Data.Nat.Digits.Defs
import Provenance.Json.Reader
import Provenance.Json.Writer

/-!
Contract: a JSON text is read as the characters that it was written for.

Owns:
- `readText_unit` to `readText_plain`: one step of reading, for each way of writing a character;
- `IsEscape`, the ways of writing a character, and `isEscape_escape`: there is no other;
- `readText_escape`: whatever a character is written as is read as that character;
- `readText_flatMap_escape`: so is a whole text, up to its closing mark.

Does **not** own: values other than texts.

## Why something must follow an escape

An escape of four digits is read only if the text goes on behind it.  In a text that was written it
does, since the closing mark is still to come; `goesOn` says so at each step.
-/

set_option autoImplicit false

namespace Provenance.Json

variable {opened : Nat} {rest : List Char}

theorem hexadecimal_succ (width number : Nat) :
    Text.hexadecimal (width + 2) number =
      Text.hexadecimal (width + 1) (number / 16) ++ [Nat.digitChar (number % 16)] := by
  unfold Text.hexadecimal
  by_cases small : number < 16
  · rw [Nat.toDigits_of_lt_base small, Nat.div_eq_of_lt small, Nat.mod_eq_of_lt small,
      Nat.toDigits_of_lt_base (by decide : 0 < 16)]
    simp [List.replicate_succ']
  · rw [Nat.toDigits_of_base_le (by decide) (Nat.le_of_not_lt small)]
    simp

theorem hexDigit?_digitChar {digit : Nat} (small : digit < 16) :
    hexDigit? (Nat.digitChar digit) = some digit := by
  revert digit
  decide

/-- A sixteen-bit unit is written in four digits, which are read as the unit. -/
theorem exists_hexadecimal_unit {unit : Nat} (small : unit < 0x10000) :
    ∃ first second third fourth, Text.hexadecimal 4 unit = [first, second, third, fourth] ∧
      hexUnit? first second third fourth = some unit := by
  have leading : unit / 16 / 16 / 16 < 16 := by omega
  have written : Text.hexadecimal 4 unit =
      [Nat.digitChar (unit / 16 / 16 / 16), Nat.digitChar (unit / 16 / 16 % 16),
        Nat.digitChar (unit / 16 % 16), Nat.digitChar (unit % 16)] := by
    rw [hexadecimal_succ, hexadecimal_succ, hexadecimal_succ, Text.hexadecimal,
      Nat.toDigits_of_lt_base leading]
    rfl
  refine ⟨_, _, _, _, written, ?_⟩
  have digit : ∀ number, hexDigit? (Nat.digitChar (number % 16)) = some (number % 16) :=
    fun number => hexDigit?_digitChar (Nat.mod_lt _ (by decide))
  simp only [hexUnit?, hexDigit?_digitChar leading, digit, Option.bind_eq_bind, Option.bind_some,
    Option.pure_def]
  congr 1
  omega

/-- An escape that is no first half of a pair is read as one character, whatever follows. -/
theorem readText_unit {first second third fourth : Char} {unit : Nat}
    (reads : hexUnit? first second third fourth = some unit) (single : isHighUnit unit = false)
    (goesOn : rest ≠ []) :
    readText opened ('\\' :: 'u' :: first :: second :: third :: fourth :: rest) =
      consRead (unitCharacter unit) (readText opened rest) := by
  obtain ⟨next, more, rfl⟩ := List.exists_cons_of_ne_nil goesOn
  -- A second escape behind the first one is looked at before it is read in its turn.
  rw [readText.eq_def]
  split <;> grind

theorem readText_pair {a b c d e f g h : Char} {high low : Nat}
    (readsHigh : hexUnit? a b c d = some high) (isHigh : isHighUnit high = true)
    (readsLow : hexUnit? e f g h = some low) (isLow : isLowUnit low = true)
    (goesOn : rest ≠ []) :
    readText opened ('\\' :: 'u' :: a :: b :: c :: d :: '\\' :: 'u' :: e :: f :: g :: h :: rest) =
      consRead (pairCharacter high low) (readText opened rest) := by
  obtain ⟨next, more, rfl⟩ := List.exists_cons_of_ne_nil goesOn
  simp [readText, readsHigh, isHigh, readsLow, isLow]

theorem readText_simple {letter character : Char} (simple : simpleEscape? letter = some character) :
    readText opened ('\\' :: letter :: rest) = consRead character (readText opened rest) := by
  have notUnit : letter ≠ 'u' := by
    rintro rfl
    cases simple
  rw [readText.eq_def]
  split <;> grind

theorem readText_plain {character : Char} (notMark : character ≠ '"') (notEscape : character ≠ '\\')
    (visible : 32 ≤ character.toNat) :
    readText opened (character :: rest) = consRead character (readText opened rest) := by
  rw [readText.eq_def]
  split <;> grind

/-! ## Characters -/

theorem toNat_cases (character : Char) :
    character.toNat < 0xd800 ∨ 0xdfff < character.toNat ∧ character.toNat < 0x110000 := by
  rcases character.valid with low | high
  · exact .inl low
  · exact .inr high

/-- A character among the first sixty-five thousand is read from its own escape. -/
theorem readText_unitEscape {character : Char} (small : character.toNat < 0x10000)
    (goesOn : rest ≠ []) :
    readText opened (unitEscape character.toNat ++ rest) =
      consRead character (readText opened rest) := by
  obtain ⟨first, second, third, fourth, written, reads⟩ := exists_hexadecimal_unit small
  have single : isHighUnit character.toNat = false ∧ isLowUnit character.toNat = false := by
    rcases toNat_cases character with low | high <;>
      simp only [isHighUnit, isLowUnit, Bool.and_eq_false_iff, decide_eq_false_iff_not] <;> omega
  rw [unitEscape, written]
  simp only [List.cons_append, List.nil_append]
  rw [readText_unit reads single.1 goesOn, unitCharacter, single.1, single.2]
  simp [Char.ofNat_toNat]

/-- A character beyond them is read from a pair of escapes. -/
theorem readText_pairEscape {character : Char} (large : 0x10000 ≤ character.toNat)
    (goesOn : rest ≠ []) :
    readText opened (unitEscape (0xd800 + (character.toNat - 0x10000) / 0x400) ++
        unitEscape (0xdc00 + (character.toNat - 0x10000) % 0x400) ++ rest) =
      consRead character (readText opened rest) := by
  have bound : character.toNat < 0x110000 := by
    rcases toNat_cases character with low | high <;> omega
  obtain ⟨a, b, c, d, high, readsHigh⟩ := exists_hexadecimal_unit
    (by omega : 0xd800 + (character.toNat - 0x10000) / 0x400 < 0x10000)
  obtain ⟨e, f, g, h, low, readsLow⟩ := exists_hexadecimal_unit
    (by omega : 0xdc00 + (character.toNat - 0x10000) % 0x400 < 0x10000)
  have isHigh : isHighUnit (0xd800 + (character.toNat - 0x10000) / 0x400) = true := by
    simp only [isHighUnit, Bool.and_eq_true, decide_eq_true_eq]
    omega
  have isLow : isLowUnit (0xdc00 + (character.toNat - 0x10000) % 0x400) = true := by
    simp only [isLowUnit, Bool.and_eq_true, decide_eq_true_eq]
    omega
  have paired : pairCharacter (0xd800 + (character.toNat - 0x10000) / 0x400)
      (0xdc00 + (character.toNat - 0x10000) % 0x400) = character := by
    have whole : 0x10000 + (0xd800 + (character.toNat - 0x10000) / 0x400 - 0xd800) * 0x400 +
        (0xdc00 + (character.toNat - 0x10000) % 0x400 - 0xdc00) = character.toNat := by omega
    rw [pairCharacter, whole, Char.ofNat_toNat]
  rw [unitEscape, unitEscape, high, low]
  simp only [List.cons_append, List.nil_append]
  rw [readText_pair readsHigh isHigh readsLow isLow goesOn, paired]

/-- The ways of writing a character. -/
inductive IsEscape (asciiOnly : Bool) (character : Char) : List Char → Prop
  /-- A backslash and a letter of its own. -/
  | letter {letter : Char} (known : letter ∈ ['"', '\\', 'n', 'r', 't', 'b', 'f'])
    (means : simpleEscape? letter = some character) : IsEscape asciiOnly character ['\\', letter]
  | unit (small : character.toNat < 0x10000) :
    IsEscape asciiOnly character (unitEscape character.toNat)
  | pair (large : 0x10000 ≤ character.toNat) :
    IsEscape asciiOnly character
      (unitEscape (0xd800 + (character.toNat - 0x10000) / 0x400) ++
        unitEscape (0xdc00 + (character.toNat - 0x10000) % 0x400))
  /-- The character as it is. -/
  | raw (notMark : character ≠ '"') (notEscape : character ≠ '\\')
    (visible : 32 ≤ character.toNat) (ascii : asciiOnly → character.toNat < 128) :
    IsEscape asciiOnly character [character]

/-- A character is written in one of these ways. -/
theorem isEscape_escape (asciiOnly : Bool) (character : Char) :
    IsEscape asciiOnly character (escape asciiOnly character) := by
  unfold escape
  by_cases mark : character = '"'
  · rw [if_pos mark]
    exact .letter (by decide) (congrArg some mark.symm)
  rw [if_neg mark]
  by_cases backslash : character = '\\'
  · rw [if_pos backslash]
    exact .letter (by decide) (congrArg some backslash.symm)
  rw [if_neg backslash]
  by_cases lineFeed : character = '\n'
  · rw [if_pos lineFeed]
    exact .letter (by decide) (congrArg some lineFeed.symm)
  rw [if_neg lineFeed]
  by_cases carriageReturn : character = '\r'
  · rw [if_pos carriageReturn]
    exact .letter (by decide) (congrArg some carriageReturn.symm)
  rw [if_neg carriageReturn]
  by_cases tab : character = '\t'
  · rw [if_pos tab]
    exact .letter (by decide) (congrArg some tab.symm)
  rw [if_neg tab]
  by_cases backspace : character.toNat = 8
  · rw [if_pos backspace]
    exact .letter (by decide) (congrArg some (backspace ▸ Char.ofNat_toNat character))
  rw [if_neg backspace]
  by_cases formFeed : character.toNat = 12
  · rw [if_pos formFeed]
    exact .letter (by decide) (congrArg some (formFeed ▸ Char.ofNat_toNat character))
  rw [if_neg formFeed]
  by_cases control : character.toNat < 32
  · rw [if_pos control]
    exact .unit (Nat.lt_trans control (by decide))
  rw [if_neg control]
  by_cases raised : (asciiOnly && decide (126 < character.toNat)) = true
  · rw [if_pos raised]
    by_cases small : character.toNat < 0x10000
    · rw [if_pos small]
      exact .unit small
    · rw [if_neg small]
      exact .pair (Nat.le_of_not_lt small)
  · rw [if_neg raised]
    refine .raw mark backslash (Nat.le_of_not_lt control) fun ascii => ?_
    rw [ascii, Bool.true_and, decide_eq_true_eq] at raised
    omega

/-- **Whatever a character is written as is read as that character.** -/
theorem readText_escape (asciiOnly : Bool) (character : Char) (goesOn : rest ≠ []) :
    readText opened (escape asciiOnly character ++ rest) =
      consRead character (readText opened rest) := by
  have way := isEscape_escape asciiOnly character
  generalize escape asciiOnly character = written at way ⊢
  cases way with
  | letter _ means => exact readText_simple means
  | unit small => exact readText_unitEscape small goesOn
  | pair large => exact readText_pairEscape large goesOn
  | raw notMark notEscape visible _ => exact readText_plain notMark notEscape visible

/-- A written text is read up to its closing mark. -/
theorem readText_flatMap_escape (asciiOnly : Bool) (characters : List Char) :
    readText opened (characters.flatMap (escape asciiOnly) ++ '"' :: rest) =
      .ok (characters, rest) := by
  induction characters with
  | nil => rfl
  | cons character others inductionHypothesis =>
      rw [List.flatMap_cons, List.append_assoc, readText_escape asciiOnly character (by simp),
        inductionHypothesis]
      rfl

end Provenance.Json
