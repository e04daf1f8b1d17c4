import Mathlib.Data.List.Basic
import Mathlib.Data.Nat.Digits.Defs
import Provenance.Json.Reader
import Provenance.Json.Writer
import Provenance.Proofs.Data.Plain

/-!
Contract: a whole number in JSON is read from its digits.

Owns:
- `Ends`, what may stand behind a number without being taken for a part of it;
- `splitWhole?_toDigits` and `readNumber_toDigits`: the digits of a number are taken as a whole;
- `readSimple_toString`: a whole number that may be written is read from its text.

Does **not** own: numbers with a point or an exponent.
-/

set_option autoImplicit false

namespace Provenance.Json

open Data (Value)

variable {rest digits : List Char} {number : Nat}

/-- What may stand behind a value: nothing that a number could go on with. -/
def Ends (rest : List Char) : Prop :=
  ∀ character ∈ rest.head?, isDigit character = false ∧ character ≠ '.' ∧ character ≠ 'e' ∧
    character ≠ 'E'

theorem takeWhile_isDigit (areDigits : ∀ digit ∈ digits, isDigit digit) (ends : Ends rest) :
    (digits ++ rest).takeWhile isDigit = digits := by
  have behind : rest.takeWhile isDigit = [] := by
    cases rest with
    | nil => rfl
    | cons next more => simp [(ends next rfl).1]
  rw [List.takeWhile_append_of_pos areDigits, behind, List.append_nil]

theorem dropWhile_isDigit (areDigits : ∀ digit ∈ digits, isDigit digit) (ends : Ends rest) :
    (digits ++ rest).dropWhile isDigit = rest := by
  have behind : rest.dropWhile isDigit = rest := by
    cases rest with
    | nil => rfl
    | cons next more => simp [(ends next rfl).1]
  rw [List.dropWhile_append_of_pos areDigits, behind]

theorem isDigit_of_mem_toDigits {digit : Char} (member : digit ∈ Nat.toDigits 10 number) :
    isDigit digit = true :=
  Nat.isDigit_of_mem_toDigits (by decide) (by decide) member

/-- Only zero is written with a zero in front. -/
theorem eq_zero_of_toDigits_eq_cons {more : List Char}
    (leading : Nat.toDigits 10 number = '0' :: more) : number = 0 := by
  induction number using Nat.strong_induction_on generalizing more with
  | h number inductionHypothesis =>
      by_cases small : number < 10
      · rw [Nat.toDigits_of_lt_base small] at leading
        exact Nat.digitChar_eq_zero.mp (List.cons.inj leading).1
      · have shorter : number / 10 < number := Nat.div_lt_self (by omega) (by decide)
        rw [Nat.toDigits_of_base_le (by decide) (Nat.le_of_not_lt small)] at leading
        cases before : Nat.toDigits 10 (number / 10) with
        | nil => exact absurd before Nat.toDigits_ne_nil
        | cons first others =>
            rw [before] at leading
            obtain rfl := (List.cons.inj leading).1
            have zero := inductionHypothesis (number / 10) shorter before
            omega

/-- The digits of a number are taken as a whole. -/
theorem splitWhole?_toDigits (ends : Ends rest) :
    splitWhole? (Nat.toDigits 10 number ++ rest) = some (Nat.toDigits 10 number, rest) := by
  have areDigits : ∀ digit ∈ Nat.toDigits 10 number, isDigit digit :=
    fun digit member => isDigit_of_mem_toDigits member
  have takes := takeWhile_isDigit areDigits ends
  have drops := dropWhile_isDigit areDigits ends
  cases written : Nat.toDigits 10 number with
  | nil => exact absurd written Nat.toDigits_ne_nil
  | cons first others =>
      rw [written] at takes drops
      by_cases zero : first = '0'
      · subst zero
        obtain rfl := eq_zero_of_toDigits_eq_cons written
        obtain rfl : others = [] := (List.cons.inj written).2.symm
        rfl
      · rw [List.cons_append] at takes drops ⊢
        unfold splitWhole?
        split
        · next more same => exact absurd (List.cons.inj same).1 zero
        · next => rw [takes, drops]

theorem digitsValue_toDigits : digitsValue (Nat.toDigits 10 number) = number := by
  have value := @Nat.ofDigitChars_toDigits 10 number (by decide) (by decide)
  rw [Nat.ofDigitChars_eq_foldl] at value
  rw [digitsValue, Text.positional, List.foldl_map]
  simpa only [Nat.mul_comm, show '0'.toNat = 48 from rfl] using value

theorem length_toDigits_le (limit : Nat) (positive : 0 < limit)
    (below : ¬ Nat.pow 10 limit ≤ number) : (Nat.toDigits 10 number).length ≤ limit :=
  (Nat.length_toDigits_le_iff (by decide) positive).mpr (Nat.lt_of_not_le below)

/-- A number that may be written may be read. -/
theorem not_hasTooMany_toDigits [limit : Text.DigitLimit] (short : Text.isTooLong number = false) :
    Text.hasTooMany (Nat.toDigits 10 number).length = false := by
  have below := Data.isTooLong_eq_false_iff.mp short
  have positive := limit.positive
  unfold Text.hasTooMany
  cases most_eq : limit.most? with
  | none => rfl
  | some most =>
      have few := length_toDigits_le most (positive most most_eq)
        (Nat.not_le.mpr (below most most_eq))
      simpa using few

theorem readNumber_toDigits [Text.DigitLimit] (negative : Bool) (short : Text.isTooLong number = false)
    (ends : Ends rest) :
    readNumber negative (Nat.toDigits 10 number ++ rest) =
      .ok (some (.int (if negative then -number else number), rest)) := by
  have fraction : splitFraction rest = ([], rest) := by
    cases rest with
    | nil => rfl
    | cons next more =>
        have notPoint := (ends next rfl).2.1
        unfold splitFraction
        split
        · next same => exact absurd (List.cons.inj same).1 notPoint
        · rfl
  have exponent : splitExponent rest = (none, rest) := by
    cases rest with
    | nil => rfl
    | cons next more =>
        have notMark := (ends next rfl).2.2
        simp [splitExponent, notMark.1, notMark.2]
  rw [readNumber, splitWhole?_toDigits ends]
  simp only [fraction, exponent, List.isEmpty_nil, Option.isNone_none, Bool.and_self, if_true,
    not_hasTooMany_toDigits short, Bool.false_eq_true, if_false, digitsValue_toDigits]

/-! ## Words and numbers -/

theorem digit_ne {digit other : Char} (isDigit : isDigit digit = true)
    (notDigit : Json.isDigit other = false) : digit ≠ other := by
  rintro rfl
  rw [isDigit] at notDigit
  cases notDigit

theorem readLiteral?_of_digit {first : Char} {more : List Char} (digit : isDigit first = true) :
    readLiteral? (first :: more) = none ∧ readLiteral? ('-' :: first :: more) = none := by
  have n := digit_ne digit (by decide : isDigit 'n' = false)
  have t := digit_ne digit (by decide : isDigit 't' = false)
  have f := digit_ne digit (by decide : isDigit 'f' = false)
  have N := digit_ne digit (by decide : isDigit 'N' = false)
  have I := digit_ne digit (by decide : isDigit 'I' = false)
  have minus := digit_ne digit (by decide : isDigit '-' = false)
  constructor <;>
    simp [readLiteral?, literals, n.symm, t.symm, f.symm, N.symm, I.symm, minus.symm]

theorem readSimple_of_digit [Text.DigitLimit] {first : Char} {more : List Char} {found : Value × List Char}
    (digit : isDigit first = true)
    (reads : readNumber false (first :: more) = .ok (some found)) :
    readSimple (first :: more) = .ok found := by
  have notMinus := digit_ne digit (by decide : isDigit '-' = false)
  simp [readSimple, (readLiteral?_of_digit digit).1, notMinus, reads]

theorem readSimple_of_minus [Text.DigitLimit] {first : Char} {more : List Char} {found : Value × List Char}
    (digit : isDigit first = true)
    (reads : readNumber true (first :: more) = .ok (some found)) :
    readSimple ('-' :: first :: more) = .ok found := by
  unfold readSimple
  simp only [(readLiteral?_of_digit digit).2, reads]

theorem exists_toDigits_eq_cons (number : Nat) :
    ∃ digit others, Nat.toDigits 10 number = digit :: others ∧ isDigit digit = true := by
  obtain ⟨digit, others, written⟩ := List.exists_cons_of_ne_nil (@Nat.toDigits_ne_nil number 10)
  exact ⟨digit, others, written, isDigit_of_mem_toDigits (written ▸ List.mem_cons_self)⟩

theorem toList_toString_ofNat (number : Nat) :
    (toString (Int.ofNat number)).toList = Nat.toDigits 10 number :=
  Nat.toList_repr

theorem toList_toString_negSucc (number : Nat) :
    (toString (Int.negSucc number)).toList = '-' :: Nat.toDigits 10 (number + 1) := by
  rw [show toString (Int.negSucc number) = "-" ++ (number + 1).repr from rfl,
    String.toList_append, Nat.toList_repr]
  rfl

/-- A whole number that may be written is read from its text. -/
theorem readSimple_toString [Text.DigitLimit] {value : Int}
    (short : Text.isTooLong value = false) (ends : Ends rest) :
    readSimple ((toString value).toList ++ rest) = .ok (.int value, rest) := by
  cases value with
  | ofNat number =>
      obtain ⟨digit, others, written, isDigit⟩ := exists_toDigits_eq_cons number
      have reads := readNumber_toDigits false short ends
      rw [toList_toString_ofNat]
      rw [written, List.cons_append] at reads ⊢
      exact readSimple_of_digit isDigit reads
  | negSucc number =>
      obtain ⟨digit, others, written, isDigit⟩ := exists_toDigits_eq_cons (number + 1)
      have reads := @readNumber_toDigits rest (number + 1) _ true short ends
      rw [toList_toString_negSucc]
      rw [written, List.cons_append] at reads
      rw [written, List.cons_append, List.cons_append]
      exact readSimple_of_minus isDigit reads

end Provenance.Json
