import Mathlib.Data.List.Basic
import Provenance.Text.Utf8

/-!
Contract: ASCII texts and their octets.

Owns:
- `decodeStrict_encode_of_ascii`: such a text is read from its octets;
- `unifyLineEnds_of_not_mem`: a text without carriage returns keeps its line ends.

Does **not** own: characters of more than one octet.
-/

set_option autoImplicit false

namespace Provenance.Text.Utf8

variable {characters : List Char}

theorem encodeCharacter_of_ascii {character : Char} (ascii : character.toNat < 128) :
    encodeCharacter character = [UInt8.ofNat character.toNat] :=
  if_pos ascii

/-- The octet of an ASCII character is a piece of its own. -/
theorem begin_of_ascii {character : Char} (ascii : character.toNat < 128) (position : Nat) :
    begin position (UInt8.ofNat character.toNat) = (none, [.character character]) := by
  have value : (UInt8.ofNat character.toNat).toNat = character.toNat := by
    rw [UInt8.toNat_ofNat']
    exact Nat.mod_eq_of_lt (Nat.lt_trans ascii (by decide))
  simp only [begin, start, value, if_pos ascii, Char.ofNat_toNat]

theorem piecesFrom_of_ascii (ascii : ∀ character ∈ characters, character.toNat < 128)
    (position : Nat) :
    piecesFrom position none (characters.flatMap encodeCharacter) =
      characters.map .character := by
  induction characters generalizing position with
  | nil => rfl
  | cons character rest inductionHypothesis =>
      obtain ⟨first, others⟩ := List.forall_mem_cons.mp ascii
      rw [List.flatMap_cons, encodeCharacter_of_ascii first, List.singleton_append, piecesFrom, step,
        begin_of_ascii first]
      simp only [inductionHypothesis others, List.singleton_append, List.map_cons]

theorem wholeCharacters_map_character (characters : List Char) :
    wholeCharacters (characters.map .character) = .ok characters := by
  induction characters with
  | nil => rfl
  | cons character rest inductionHypothesis =>
      rw [List.map_cons, wholeCharacters, inductionHypothesis]
      rfl

/-- **An ASCII text is read from its octets.** -/
theorem decodeStrict_encode_of_ascii {text : String}
    (ascii : ∀ character ∈ text.toList, character.toNat < 128) :
    decodeStrict (encode text) = .ok text.toList := by
  rw [decodeStrict, pieces, encode, piecesFrom_of_ascii ascii, wholeCharacters_map_character]

/-- A text without carriage returns keeps its line ends. -/
theorem unifyLineEnds_of_not_mem (absent : '\r' ∉ characters) :
    unifyLineEnds characters = characters := by
  induction characters with
  | nil => rfl
  | cons character rest inductionHypothesis =>
      rw [List.mem_cons, not_or] at absent
      have rest_eq := inductionHypothesis absent.2
      rw [unifyLineEnds.eq_def]
      split
      · next same => cases same
      · next same => exact absurd (List.cons.inj same).1.symm absent.1
      · next same => exact absurd (List.cons.inj same).1.symm absent.1
      · next same =>
          obtain ⟨rfl, rfl⟩ := List.cons.inj same
          rw [rest_eq]

end Provenance.Text.Utf8
