import Provenance.Failure.Shown
import Provenance.Proofs.Data.Entries

/-!
Contract: values that every text format has a form for.

Owns:
- `Value.IsPlain`: null, truth values, whole numbers, texts, lists and dictionaries whose keys are
  texts, each once;
- `Value.IsTree`: dictionaries of that kind within one another, with anything else in them;
- `Entries.ofList_named`: such a dictionary is what its entries make in their order;
- `leastBeyond`, the least number of too many digits, and where in a plain value such a number is;
- `unlessLong`, a result that such a number stands in the way of.

Does **not** own: any format.
-/

set_option autoImplicit false

namespace Provenance.Data

open Failure (Fault)

/-- Null, truth values, whole numbers and texts, and lists and dictionaries of these. -/
inductive Value.IsPlain : Value → Prop
  | null : IsPlain .null
  | bool (value : Bool) : IsPlain (.bool value)
  | int (value : Int) : IsPlain (.int value)
  | text (value : String) : IsPlain (.text value)
  | list {items : List Value} : (∀ item ∈ items, IsPlain item) → IsPlain (.list items)
  | record {entries : List (String × Value)} : (entries.map Prod.fst).Nodup →
    (∀ entry ∈ entries, IsPlain entry.2) → IsPlain (.record entries)

/-- A value whose dictionaries within dictionaries have texts as keys, each of them once. -/
inductive Value.IsTree : Value → Prop
  | leaf {value : Value} : (∀ entries, value ≠ .dict entries) → IsTree value
  | record {entries : List (String × Value)} : (entries.map Prod.fst).Nodup →
    (∀ entry ∈ entries, IsTree entry.2) → IsTree (.record entries)

/-! ## Entries with text keys -/

namespace Entries

variable {entries : Entries} {key : String} {value : Value}

/-- Entries under texts. -/
def named (entries : List (String × Value)) : Entries :=
  entries.map fun (key, value) => (.text key, value)

theorem texts_named (entries : List (String × Value)) :
    texts (named entries) = entries.map Prod.fst := by
  rw [texts, named, List.filterMap_map, ← List.filterMap_eq_map]
  rfl

/-- Under keys that stand there once, every entry is found. -/
theorem get?_named {entries : List (String × Value)} (distinct : (entries.map Prod.fst).Nodup)
    (member : (key, value) ∈ entries) : get? (named entries) key = some value := by
  obtain ⟨before, after, rfl⟩ := List.append_of_mem member
  have absent : key ∉ texts (named before) := by
    rw [texts_named]
    intro isThere
    rw [List.map_append, List.map_cons, List.nodup_append] at distinct
    exact distinct.2.2 key isThere key List.mem_cons_self rfl
  have isSplit : named (before ++ (key, value) :: after) =
      named before ++ (.text key, value) :: named after := by
    simp [named]
  rw [isSplit]
  exact get?_split absent

/-- What is found is the value of an entry. -/
theorem exists_mem_of_find?_named {found : Scalar} {entries : List (String × Value)}
    (isThere : find? found (named entries) = some value) : ∃ entry ∈ entries, entry.2 = value := by
  induction entries with
  | nil => cases isThere
  | cons entry rest inductionHypothesis =>
      rw [named, List.map_cons, find?] at isThere
      split at isThere
      · exact ⟨entry, List.mem_cons_self, Option.some.inj isThere⟩
      · obtain ⟨other, member, same⟩ := inductionHypothesis isThere
        exact ⟨other, List.mem_cons_of_mem _ member, same⟩

/-- A new key goes to the end. -/
theorem insert_of_not_mem (absent : key ∉ texts entries) :
    insert (.text key) value entries = entries ++ [(.text key, value)] := by
  induction entries with
  | nil => rfl
  | cons entry rest inductionHypothesis =>
      obtain ⟨different, absent⟩ := sameKey_eq_false_of_not_mem absent
      rw [insert, if_neg (by rw [different]; simp), inductionHypothesis absent, List.cons_append]

/-- New keys go to the end in their order. -/
theorem insertAll_named {additions : List (String × Value)}
    (distinct : (additions.map Prod.fst).Nodup)
    (absent : ∀ addition ∈ additions, addition.1 ∉ texts entries) :
    insertAll entries (named additions) = entries ++ named additions := by
  induction additions generalizing entries with
  | nil => rw [named, List.map_nil, List.append_nil, insertAll, List.foldl_nil]
  | cons addition rest inductionHypothesis =>
      obtain ⟨key, value⟩ := addition
      obtain ⟨first, others⟩ := List.nodup_cons.mp distinct
      have step : insertAll entries (named ((key, value) :: rest)) =
          insertAll (insert (.text key) value entries) (named rest) := rfl
      rw [step, insert_of_not_mem (absent _ List.mem_cons_self), inductionHypothesis others]
      · rw [List.append_assoc]
        rfl
      · intro other member isThere
        rw [texts_append, List.mem_append] at isThere
        rcases isThere with earlier | isKey
        · exact absent other (List.mem_cons_of_mem _ member) earlier
        · exact first (List.mem_map.mpr ⟨other, member, List.mem_singleton.mp isKey⟩)

/-- Entries whose keys differ make the dictionary that they are. -/
theorem ofList_named {entries : List (String × Value)}
    (distinct : (entries.map Prod.fst).Nodup) : ofList (named entries) = named entries :=
  insertAll_named distinct fun _ _ => List.not_mem_nil

end Entries

theorem Value.IsTree.exists_named {entries : Entries} (isTree : (Value.dict entries).IsTree) :
    ∃ named, entries = Entries.named named ∧ ∀ entry ∈ named, entry.2.IsTree := by
  generalize isDict : Value.dict entries = value at isTree
  cases isTree with
  | leaf unlike => exact absurd isDict.symm (unlike entries)
  | @record named distinct trees => exact ⟨named, Value.dict.inj isDict, trees⟩

/-! ## Numbers of too many digits -/

/-- The least number that has more than so many digits: a one and that many zeros. -/
def leastBeyond (digits : Nat) : Int :=
  Int.ofNat (Nat.pow 10 digits)

section Limits

variable [limit : Text.DigitLimit]

theorem isTooLong_eq_false_iff {number : Int} :
    Text.isTooLong number = false ↔ ∀ most ∈ limit.most?, number.natAbs < Nat.pow 10 most := by
  unfold Text.isTooLong
  cases limit.most? with
  | none => simp
  | some most => simp

/-- A number below a power of ten has no more digits than the power has zeros. -/
theorem isTooLong_eq_false {number : Int} (exponent : Nat)
    (few : ∀ most ∈ limit.most?, exponent ≤ most) (small : number.natAbs < Nat.pow 10 exponent) :
    Text.isTooLong number = false :=
  isTooLong_eq_false_iff.mpr fun most isLimit =>
    Nat.lt_of_lt_of_le small (Nat.pow_le_pow_right (by decide) (few most isLimit))

theorem isTooLong_leastBeyond {most : Nat} (isLimit : limit.most? = some most) :
    Text.isTooLong (leastBeyond most) = true := by
  rw [Text.isTooLong, isLimit]
  exact decide_eq_true (Nat.le_refl _)

theorem Scalar.isTooLong_of_unlimited (unlimited : limit.most? = none) (value : Scalar) :
    value.isTooLong = false := by
  unfold isTooLong
  split
  · rw [Text.isTooLong, unlimited]
    rfl
  · rfl

theorem Value.areItemsTooLong_eq (items : List Value) :
    Value.areItemsTooLong items = items.any Value.isTooLong := by
  induction items with
  | nil => rfl
  | cons item rest inductionHypothesis =>
      rw [Value.areItemsTooLong, List.any_cons, inductionHypothesis]

theorem Value.areEntriesTooLong_named (entries : List (String × Value)) :
    Value.areEntriesTooLong (Entries.named entries) = entries.any fun entry => entry.2.isTooLong := by
  induction entries with
  | nil => rfl
  | cons entry rest inductionHypothesis =>
      rw [List.any_cons, ← inductionHypothesis]
      rfl

mutual

/-- Without a limit no number has too many digits. -/
theorem Value.isTooLong_of_unlimited (unlimited : limit.most? = none) :
    (value : Value) → value.isTooLong = false
  | .scalar value => Scalar.isTooLong_of_unlimited unlimited value
  | .list items => Value.areItemsTooLong_of_unlimited unlimited items
  | .pairs entries => Value.arePairsTooLong_of_unlimited unlimited entries
  | .dict entries => Value.areEntriesTooLong_of_unlimited unlimited entries
  | .set _ => List.any_eq_false.mpr fun member _ =>
      Bool.eq_false_iff.mp (Scalar.isTooLong_of_unlimited unlimited member)
  | .link .. => rfl

theorem Value.areItemsTooLong_of_unlimited (unlimited : limit.most? = none) :
    (items : List Value) → Value.areItemsTooLong items = false
  | [] => rfl
  | item :: rest => Bool.or_eq_false_iff.mpr
      ⟨item.isTooLong_of_unlimited unlimited, Value.areItemsTooLong_of_unlimited unlimited rest⟩

theorem Value.arePairsTooLong_of_unlimited (unlimited : limit.most? = none) :
    (entries : List (Value × Value)) → Value.arePairsTooLong entries = false
  | [] => rfl
  | (first, second) :: rest => Bool.or_eq_false_iff.mpr
      ⟨Bool.or_eq_false_iff.mpr
        ⟨first.isTooLong_of_unlimited unlimited, second.isTooLong_of_unlimited unlimited⟩,
        Value.arePairsTooLong_of_unlimited unlimited rest⟩

theorem Value.areEntriesTooLong_of_unlimited (unlimited : limit.most? = none) :
    (entries : List (Scalar × Value)) → Value.areEntriesTooLong entries = false
  | [] => rfl
  | (key, value) :: rest => Bool.or_eq_false_iff.mpr
      ⟨Bool.or_eq_false_iff.mpr
        ⟨Scalar.isTooLong_of_unlimited unlimited key, value.isTooLong_of_unlimited unlimited⟩,
        Value.areEntriesTooLong_of_unlimited unlimited rest⟩

end

/-- Without a limit no number in a list of values has too many digits. -/
theorem Value.any_isTooLong_of_unlimited (unlimited : limit.most? = none) (values : List Value) :
    values.any Value.isTooLong = false :=
  (Value.areItemsTooLong_eq values).symm.trans
    (Value.areItemsTooLong_of_unlimited unlimited values)

end Limits

/-! ## Results that a long number stands in the way of -/

section Refusals

variable {α β : Type} {isLong isLong' : Bool} {result : α}

/-- A result, or a refusal where a number has too many digits. -/
def unlessLong (isLong : Bool) (result : α) : Except Fault α :=
  if isLong then .error .tooLongToWrite else .ok result

theorem unlessLong_of_short (short : isLong = false) : unlessLong isLong result = .ok result := by
  rw [short]
  rfl

theorem unlessLong_of_long (long : isLong = true) :
    unlessLong isLong result = .error .tooLongToWrite := by
  rw [long]
  rfl

theorem unlessLong_map (change : α → β) :
    (unlessLong isLong result).map change = unlessLong isLong (change result) := by
  cases isLong <;> rfl

theorem unlessLong_bind {follow : α → Except Fault β} {next : β}
    (follows : follow result = unlessLong isLong' next) :
    unlessLong isLong result >>= follow = unlessLong (isLong || isLong') next := by
  cases isLong with
  | true => rfl
  | false => exact follows

theorem unlessLong_bind_pure (change : α → β) :
    (unlessLong isLong result >>= fun result => pure (change result)) =
      unlessLong isLong (change result) := by
  cases isLong <;> rfl

variable {items : List α} {f : α → Except Fault β} {isLongItem : α → Bool}

/-- Items that each give something good, if no number stands in the way, give as many good results. -/
theorem exists_mapM {good : β → Prop}
    (each : ∀ item ∈ items, ∃ result, f item = unlessLong (isLongItem item) result ∧ good result) :
    ∃ results, items.mapM f = unlessLong (items.any isLongItem) results ∧
      results.length = items.length ∧ ∀ result ∈ results, good result := by
  induction items with
  | nil => exact ⟨[], rfl, rfl, fun _ member => absurd member List.not_mem_nil⟩
  | cons item rest inductionHypothesis =>
      obtain ⟨⟨first, isFirst, isGood⟩, others⟩ := List.forall_mem_cons.mp each
      obtain ⟨results, areRest, length_eq, areGood⟩ := inductionHypothesis others
      refine ⟨first :: results, ?_, congrArg (· + 1) length_eq,
        List.forall_mem_cons.mpr ⟨isGood, areGood⟩⟩
      rw [List.mapM_cons, isFirst, List.any_cons]
      refine unlessLong_bind ?_
      rw [areRest]
      exact unlessLong_bind_pure (first :: ·)

theorem mapM_unlessLong {g : α → β}
    (each : ∀ item ∈ items, f item = unlessLong (isLongItem item) (g item)) :
    items.mapM f = unlessLong (items.any isLongItem) (items.map g) := by
  induction items with
  | nil => rfl
  | cons item rest inductionHypothesis =>
      obtain ⟨first, others⟩ := List.forall_mem_cons.mp each
      rw [List.mapM_cons, first, List.any_cons, inductionHypothesis others]
      exact unlessLong_bind (unlessLong_bind_pure (g item :: ·))

end Refusals
end Provenance.Data
