import Provenance.Json.Writer

/-!
Contract: how far a value that has no JSON form is written.

Owns:
- `Scalar.isWritable`, the scalars that JSON has a form for;
- `mended`, a value with null in the place of every part that has none, and the empty text in the
  place of every such key;
- `Draft.Approaches`, a draft that is a whole text, or stops before the end of one;
- `draft_approaches`: the draft of a value approaches that of the mended value.

Does **not** own: where a draft goes, and reading it.

## Why a mended value

A draft that has stopped is the beginning of some text, as every draft is.  Beside the mended value
it says more: everything up to the first part without a form stands there as it would in a whole
text, and something is missing behind it.
-/

set_option autoImplicit false

namespace Provenance.Json

open Data (Scalar Value)

/-! ## Mended values -/

/-- Whether JSON has a form for a scalar, as a value and as a key. -/
def isWritable : Scalar → Bool
  | .int value => !Text.isTooLong value
  | .date _ => false
  | .datetime .. => false
  | .time _ => false
  | .bytes _ => false
  | _ => true

/-- A scalar, or another one in the place of one that has no JSON form. -/
def mendedBy (other value : Scalar) : Scalar :=
  if isWritable value then value else other

mutual

/-- A value with null in the place of every part that has no JSON form. -/
def mended : Value → Value
  | .scalar value => .scalar (mendedBy .null value)
  | .list items => .list (mendedItems items)
  | .pairs entries => .pairs (mendedPairs entries)
  | .dict entries => .dict (mendedEntries entries)
  | .set _ => .null
  | .link .. => .null

def mendedItems : List Value → List Value
  | [] => []
  | item :: rest => mended item :: mendedItems rest

def mendedPairs : List (Value × Value) → List (Value × Value)
  | [] => []
  | (first, second) :: rest => (mended first, mended second) :: mendedPairs rest

def mendedEntries : List (Scalar × Value) → List (Scalar × Value)
  | [] => []
  | (key, value) :: rest => (mendedBy (.text "") key, mended value) :: mendedEntries rest

end

/-! ## Drafts that approach a text -/

/-- A draft beside a whole one: it is that one where nothing is broken, and else it stops before the
end of it. -/
structure Draft.Approaches (isIntact : Prop) (draft whole : Draft) : Prop where
  unstopped : whole.fault = none
  arrives : isIntact → draft = whole
  stops : ¬ isIntact → draft.fault ≠ none ∧ ∃ rest, rest ≠ [] ∧ whole.text = draft.text ++ rest

namespace Draft.Approaches

variable {isIntact isIntact' : Prop} {draft whole draft' whole' : Draft} {text : List Char}

theorem congr (approaches : draft.Approaches isIntact whole) (same : isIntact' ↔ isIntact) :
    draft.Approaches isIntact' whole := by
  rwa [propext same]

theorem done (intact : isIntact) (text : List Char) :
    (Draft.done text).Approaches isIntact (.done text) :=
  ⟨rfl, fun _ => rfl, fun broken => absurd intact broken⟩

theorem stopped (broken : ¬ isIntact) (fault : Failure.Fault) (given : text ≠ []) :
    (Draft.stopped fault).Approaches isIntact (.done text) where
  unstopped := rfl
  arrives intact := absurd intact broken
  stops _ := ⟨by simp [Draft.stopped], text, given, rfl⟩

/-- **What approaches one text and then another approaches the two behind one another.** -/
theorem andThen (first : draft.Approaches isIntact whole)
    (second : draft'.Approaches isIntact' whole') :
    (draft.andThen draft').Approaches (isIntact ∧ isIntact') (whole.andThen whole') where
  unstopped := by
    rw [Draft.andThen, first.unstopped]
    exact second.unstopped
  arrives intact := by rw [first.arrives intact.1, second.arrives intact.2]
  stops broken := by
    have whole_text : (whole.andThen whole').text = whole.text ++ whole'.text := by
      rw [Draft.andThen, first.unstopped]
    by_cases intact : isIntact
    · -- The first draft has arrived, so it is the second one that stops.
      obtain ⟨halts, rest, given, text_eq⟩ := second.stops fun intact' => broken ⟨intact, intact'⟩
      have draft_eq := first.arrives intact
      have unstopped : draft.fault = none := draft_eq ▸ first.unstopped
      rw [Draft.andThen, unstopped]
      refine ⟨halts, rest, given, ?_⟩
      rw [whole_text, text_eq, draft_eq, List.append_assoc]
    · obtain ⟨halts, rest, given, text_eq⟩ := first.stops intact
      obtain ⟨fault, isFault⟩ := Option.ne_none_iff_exists'.mp halts
      rw [Draft.andThen, isFault]
      refine ⟨halts, rest ++ whole'.text, by simp [given], ?_⟩
      rw [whole_text, text_eq, List.append_assoc]

theorem enclose (style : Style) (depth : Nat) (opening closing : Char)
    (parts : draft.Approaches isIntact whole) :
    (Json.enclose style depth opening closing draft).Approaches isIntact
      (Json.enclose style depth opening closing whole) := by
  have opened := (done trivial (opening :: style.lineBreak (depth + 1))).andThen parts
  have closed := opened.andThen (done trivial (style.lineBreak depth ++ [closing]))
  exact closed.congr (by simp)

end Draft.Approaches

/-! ## The draft of a value -/

variable {style : Style} {depth : Nat}

theorem mendedBy_eq_iff {other value : Scalar} (writable : isWritable other) :
    mendedBy other value = value ↔ isWritable value := by
  unfold mendedBy
  split
  · next isWritable => simp [isWritable]
  · next unwritable =>
      refine ⟨fun same => ?_, fun isWritable => absurd isWritable unwritable⟩
      rwa [← same]

/-- A scalar with a form is written as a whole, as a value and as a key. -/
theorem written_of_isWritable (style : Style) {value : Scalar} (writable : isWritable value) :
    (∃ text, writeScalar style value = .done text) ∧ ∃ text, keyText style value = .ok text := by
  cases value with
  | bool value => cases value <;> exact ⟨⟨_, rfl⟩, _, rfl⟩
  | int value =>
      have short : wholeText value = .ok (toString value) := by
        simpa [wholeText, isWritable] using writable
      exact ⟨⟨(toString value).toList, by rw [writeScalar, short]; rfl⟩, _, short⟩
  | date _ => cases writable
  | datetime _ _ => cases writable
  | time _ => cases writable
  | bytes _ => cases writable
  | _ => exact ⟨⟨_, rfl⟩, _, rfl⟩

/-- Nothing is written of a scalar without a form. -/
theorem stopped_of_not_isWritable (style : Style) {value : Scalar} (unwritable : ¬ isWritable value) :
    (∃ fault, writeScalar style value = .stopped fault) ∧
      ∃ fault, keyText style value = .error fault := by
  cases value with
  | int value =>
      have long : wholeText value = .error .tooLongToWrite := by
        simpa [wholeText, isWritable] using unwritable
      exact ⟨⟨.tooLongToWrite, by rw [writeScalar, long]; rfl⟩, _, long⟩
  | date _ => exact ⟨⟨_, rfl⟩, _, rfl⟩
  | datetime _ _ => exact ⟨⟨_, rfl⟩, _, rfl⟩
  | time _ => exact ⟨⟨_, rfl⟩, _, rfl⟩
  | bytes _ => exact ⟨⟨_, rfl⟩, _, rfl⟩
  | _ => exact absurd rfl unwritable

theorem writeScalar_approaches (style : Style) (value : Scalar) :
    (writeScalar style value).Approaches (mendedBy .null value = value)
      (writeScalar style (mendedBy .null value)) := by
  by_cases writable : isWritable value
  · obtain ⟨text, written⟩ := (written_of_isWritable style writable).1
    have intact : mendedBy .null value = value := if_pos writable
    rw [intact, written]
    exact .done rfl text
  · obtain ⟨fault, stopped⟩ := (stopped_of_not_isWritable style writable).1
    have broken : mendedBy .null value ≠ value := mt (mendedBy_eq_iff rfl).mp writable
    rw [stopped, mendedBy, if_neg writable]
    exact .stopped (by rwa [mendedBy, if_neg writable] at broken) fault (by decide)

/-- A key and what separates it from its neighbours is written as the mended one, or not at all. -/
theorem writeKey_approaches (style : Style) (depth : Nat) (isFirst : Bool) (key : Scalar) :
    (writeKey style depth isFirst key).Approaches (mendedBy (.text "") key = key)
      (writeKey style depth isFirst (mendedBy (.text "") key)) := by
  by_cases writable : isWritable key
  · obtain ⟨text, written⟩ := (written_of_isWritable style writable).2
    have intact : mendedBy (.text "") key = key := if_pos writable
    rw [intact, writeKey, written]
    exact .done rfl _
  · obtain ⟨fault, stopped⟩ := (stopped_of_not_isWritable style writable).2
    have broken : mendedBy (.text "") key ≠ key := mt (mendedBy_eq_iff rfl).mp writable
    have mended_eq : mendedBy (.text "") key = .text "" := if_neg writable
    rw [writeKey, stopped, mended_eq]
    exact .stopped (mended_eq ▸ broken) fault (by simp)

mutual

/-- **A value is written as the mended one, up to the first part that has no form.** -/
theorem draftAt_approaches (depth : Nat) : (value : Value) →
    (draftAt style depth value).Approaches (mended value = value)
      (draftAt style depth (mended value))
  | .scalar value => by
      have scalar := writeScalar_approaches style value
      rw [mended, draftAt, draftAt]
      exact scalar.congr (by simp)
  | .list [] => .done rfl _
  | .list (item :: rest) => by
      have parts := (draftAt_approaches (depth + 1) item).andThen
        (draftItems_approaches (depth + 1) rest)
      rw [mended, mendedItems, draftAt, draftAt]
      exact (parts.enclose style depth '[' ']').congr (by simp)
  | .pairs [] => .done rfl _
  | .pairs ((first, second) :: rest) => by
      have inner := (draftAt_approaches (depth + 2) first).andThen
        ((Draft.Approaches.done trivial (style.separator (depth + 2))).andThen
          (draftAt_approaches (depth + 2) second))
      have parts := (inner.enclose style (depth + 1) '[' ']').andThen
        (draftPairs_approaches (depth + 1) rest)
      rw [mended, mendedPairs, draftAt, draftAt]
      exact (parts.enclose style depth '[' ']').congr (by simp)
  | .dict [] => .done rfl _
  | .dict ((key, value) :: rest) => by
      have parts := ((writeKey_approaches style (depth + 1) true key).andThen
        (draftAt_approaches (depth + 1) value)).andThen (draftEntries_approaches (depth + 1) rest)
      rw [mended, mendedEntries, draftAt, draftAt]
      exact (parts.enclose style depth '\x7b' '\x7d').congr (by simp)
  | .set _ => .stopped (by simp [mended]) _ (by decide)
  | .link .. => .stopped (by simp [mended]) _ (by decide)

theorem draftItems_approaches (depth : Nat) : (items : List Value) →
    (draftItems style depth items).Approaches (mendedItems items = items)
      (draftItems style depth (mendedItems items))
  | [] => .done rfl _
  | item :: rest => by
      have parts := ((Draft.Approaches.done trivial (style.separator depth)).andThen
        (draftAt_approaches depth item)).andThen (draftItems_approaches depth rest)
      rw [mendedItems, draftItems, draftItems]
      exact parts.congr (by simp)

theorem draftPairs_approaches (depth : Nat) : (entries : List (Value × Value)) →
    (draftPairs style depth entries).Approaches (mendedPairs entries = entries)
      (draftPairs style depth (mendedPairs entries))
  | [] => .done rfl _
  | (first, second) :: rest => by
      have inner := (draftAt_approaches (depth + 1) first).andThen
        ((Draft.Approaches.done trivial (style.separator (depth + 1))).andThen
          (draftAt_approaches (depth + 1) second))
      have parts := ((Draft.Approaches.done trivial (style.separator depth)).andThen
        (inner.enclose style depth '[' ']')).andThen (draftPairs_approaches depth rest)
      rw [mendedPairs, draftPairs, draftPairs]
      exact parts.congr (by simp)

theorem draftEntries_approaches (depth : Nat) : (entries : List (Scalar × Value)) →
    (draftEntries style depth entries).Approaches (mendedEntries entries = entries)
      (draftEntries style depth (mendedEntries entries))
  | [] => .done rfl _
  | (key, value) :: rest => by
      have parts := ((writeKey_approaches style depth false key).andThen
        (draftAt_approaches depth value)).andThen (draftEntries_approaches depth rest)
      rw [mendedEntries, draftEntries, draftEntries]
      exact parts.congr (by simp)

end

end Provenance.Json
