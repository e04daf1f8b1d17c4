import Provenance.Proofs.Settings.Paths
import Provenance.Settings.Merge

/-!
Contract: the entries at the paths of shared values, and where a merged value has them from.

Owns:
- `Shared.entryAt?`, what is at a path of keys behind the links, and what is seen of it;
- `entryAt?_overlay`: an entry of one layer over another is the upper layer's, or the lower layer's
  where the upper one has none;
- `mergeShared_eq_ok`, when two layers are merged and to what.

Does **not** own: which layers there are.
-/

set_option autoImplicit false

namespace Provenance

open Data (Scalar Value Entries Shared Cells Kind)

/-! ## Paths of shared values -/

namespace Data

/-- What is at a path of keys, behind the links on the way. -/
def Shared.entryAt? : List String → Shared → Option Shared
  | [], shared => some shared
  | key :: rest, shared =>
    (shared.head.entry? key).bind fun value => entryAt? rest (shared.part value)

variable {cells : Cells} {around : List Nat} {value : Value} {path : List String} {key : String}

theorem Value.entry?_of_ne_dict (unlike : ∀ entries, value ≠ .dict entries) :
    value.entry? key = none := by
  cases value with
  | dict entries => exact absurd rfl (unlike entries)
  | _ => rfl

theorem Shared.entryAt?_cons {shared found : Shared} {rest : List String} :
    shared.entryAt? (key :: rest) = some found ↔
      ∃ entries part, shared.head = .dict entries ∧ Entries.get? entries key = some part ∧
        Shared.entryAt? rest (shared.part part) = some found := by
  rw [Shared.entryAt?, Option.bind_eq_some_iff]
  constructor
  · rintro ⟨part, isEntry, behind⟩
    cases head : shared.head with
    | dict entries =>
        rw [head] at isEntry
        exact ⟨entries, part, rfl, isEntry, behind⟩
    | _ =>
        rw [head] at isEntry
        cases isEntry
  · rintro ⟨entries, part, isDict, isEntry, behind⟩
    exact ⟨part, by rw [isDict]; exact isEntry, behind⟩

theorem Shared.cells_of_entryAt? {shared entry : Shared}
    (isThere : shared.entryAt? path = some entry) : entry.cells = shared.cells := by
  induction path generalizing shared with
  | nil =>
      obtain rfl := Option.some.inj isThere
      rfl
  | cons key rest inductionHypothesis =>
      obtain ⟨part, -, behind⟩ := Option.bind_eq_some_iff.mp isThere
      exact @inductionHypothesis (shared.part part) behind

/-- The path of a nested value leads to what the same path of its tree leads to. -/
theorem Cells.IsNested.entryAt?_shown (nested : cells.IsNested around value) :
    (cells.shown around value).entryAt? path =
      (Shared.entryAt? path ⟨value, cells⟩).map Shared.value := by
  induction path generalizing around value with
  | nil =>
      have same : cells.shown around value = cells.shown [] value :=
        Cells.shown_congr nested.collections rfl nested.isAround .nil fun cell reaches =>
          ⟨rfl, by simp [nested.apart reaches]⟩
      rw [Value.entryAt?, same]
      rfl
  | cons key rest inductionHypothesis =>
      have atDict : ∀ {around : List Nat} {entries : Entries},
          cells.IsNested around (.dict entries) →
            (cells.shown around (.dict entries)).entryAt? (key :: rest) =
              (Shared.entryAt? (key :: rest) ⟨.dict entries, cells⟩).map Shared.value := by
        intro around entries nested
        rw [Cells.shown_dict nested.isAround, Value.entryAt?, Value.entry?, Entries.get?_mapValues]
        have head : Shared.entryAt? (key :: rest) ⟨.dict entries, cells⟩ =
            (Entries.get? entries key).bind fun part => Shared.entryAt? rest ⟨part, cells⟩ := rfl
        rw [head]
        cases isEntry : Entries.get? entries key with
        | none => rfl
        | some part =>
            obtain ⟨before, after, rfl, -⟩ := Entries.exists_split_of_get? isEntry
            exact inductionHypothesis (nested.entry Cells.inside_split)
      by_cases isDict : ∃ entries, cells.resolve value = .dict entries
      · obtain ⟨entries, isDict⟩ := isDict
        have behind : Shared.entryAt? (key :: rest) ⟨value, cells⟩ =
            Shared.entryAt? (key :: rest) ⟨.dict entries, cells⟩ := by
          rw [Shared.entryAt?, Shared.head, isDict]
          rfl
        rw [behind]
        cases value with
        | dict own =>
            obtain rfl : own = entries := Value.dict.inj isDict
            exact atDict nested
        | link cell kind =>
            have holds := Cells.getElem?_of_resolve_dict isDict
            obtain ⟨outside, nestedInner⟩ := nested.linked holds
            rw [Cells.shown_link nested.isAround outside holds]
            exact atDict nestedInner
        | _ => cases isDict
      · have unlike := not_exists.mp isDict
        have noEntry : Shared.entryAt? (key :: rest) ⟨value, cells⟩ = none := by
          rw [Shared.entryAt?, Shared.head, Value.entry?_of_ne_dict unlike]
          rfl
        rw [noEntry, Value.entryAt?, Value.entry?_of_ne_dict
          (Cells.shown_ne_dict nested.isAround nested.collections unlike)]
        rfl

theorem Shared.IsNested.entryAt?_value {shared : Shared} (nested : shared.IsNested)
    (path : List String) :
    shared.value.entryAt? path = (shared.entryAt? path).map Shared.value :=
  nested.inCells.entryAt?_shown

end Data

/-! ## One layer over another -/

namespace Settings

variable {cells : Cells} {upper lower : Value} {path : List String} {key : String}
  {resolve : Value → Value}

/-- What an upper layer's entries make of what is under a key. -/
def overlaid (resolve : Value → Value) (upper : Entries) (key : String) (lower : Value) : Value :=
  match Entries.get? upper key with
  | some found => overlay resolve found lower
  | none => lower

theorem get?_overlayEntries (upper lower rest : Entries) :
    Entries.get? (overlayEntries resolve upper lower ++ rest) key =
      match Entries.get? lower key with
      | some value => some (overlaid resolve upper key value)
      | none => Entries.get? rest key := by
  induction lower with
  | nil => rfl
  | cons entry others inductionHypothesis =>
      obtain ⟨found, value⟩ := entry
      rw [overlayEntries, List.cons_append, Entries.get?, Entries.find?, Entries.get?,
        Entries.find?]
      by_cases same : found.sameKey (.text key)
      · rw [if_pos same, if_pos same, Data.Scalar.sameKey_text_iff.mp same]
        rfl
      · rw [if_neg same, if_neg same]
        exact inductionHypothesis

theorem newEntries_cons (known : Entries) (found : Scalar) (value : Value) (rest : Entries) :
    newEntries known ((found, value) :: rest) =
      if Entries.hasKey known found then newEntries known rest
      else (found, value) :: newEntries known rest := by
  unfold newEntries
  cases known : Entries.hasKey known found <;> simp [known]

theorem get?_newEntries {known entries : Entries} (absent : Entries.get? known key = none) :
    Entries.get? (newEntries known entries) key = Entries.get? entries key := by
  have unknown : ¬ Entries.hasKey known (.text key) = true := by
    rw [Entries.hasKey, show Entries.find? (.text key) known = none from absent]
    simp
  induction entries with
  | nil => rfl
  | cons entry rest inductionHypothesis =>
      obtain ⟨found, value⟩ := entry
      rw [newEntries_cons]
      by_cases same : found.sameKey (.text key)
      · obtain rfl := Data.Scalar.sameKey_text_iff.mp same
        rw [if_neg unknown, Entries.get?, Entries.find?, if_pos same, Entries.get?,
          Entries.find?, if_pos same]
      · have passed : ∀ rest : Entries,
            Entries.get? ((found, value) :: rest) key = Entries.get? rest key := by
          intro rest
          rw [Entries.get?, Entries.find?, if_neg same]
          rfl
        rw [passed]
        split
        · exact inductionHypothesis
        · rw [passed]
          exact inductionHypothesis

theorem get?_overlaid (upper lower : Entries) :
    Entries.get? (overlayEntries resolve upper lower ++ newEntries lower upper) key =
      match Entries.get? lower key with
      | some value => some (overlaid resolve upper key value)
      | none => Entries.get? upper key := by
  rw [get?_overlayEntries]
  cases known : Entries.get? lower key with
  | none => exact get?_newEntries known
  | some value => rfl

/-- Whether a value is a scalar. -/
def isScalar : Value → Bool
  | .scalar _ => true
  | _ => false

/-- An entry of a value without links that is no dictionary is the same in any cells. -/
theorem entryAt?_of_isKeyed {entry : Shared} (plain : lower.isKeyed isScalar)
    (isThere : Shared.entryAt? path ⟨lower, cells⟩ = some entry)
    (unlike : ∀ entries, entry.head ≠ .dict entries) : lower.entryAt? path = some entry.value := by
  induction path generalizing lower with
  | nil =>
      obtain rfl := Option.some.inj isThere
      cases lower with
      | dict entries => exact absurd rfl (unlike entries)
      | scalar scalar => rw [Value.entryAt?, Shared.value_eq_shown, Cells.shown_scalar]
      | _ => cases plain
  | cons key rest inductionHypothesis =>
      cases lower with
      | dict entries =>
          obtain ⟨part, isEntry, behind⟩ := Option.bind_eq_some_iff.mp isThere
          rw [Value.entryAt?, show Value.entry? key (.dict entries) = some part from isEntry]
          exact inductionHypothesis (Data.Value.isKeyed_of_get? plain isEntry) behind
      | scalar scalar => cases isThere
      | _ => cases plain

/-- What an entry is at a path of two layers: the upper layer's, or the lower one's where the upper
one has none. -/
def IsLayered (upper : Shared) (lower : Value) (path : List String) (entry : Shared) : Prop :=
  (∀ given, upper.entryAt? path = some given → entry = given) ∧
    (upper.entryAt? path = none → lower.entryAt? path = some entry.value)

variable {entry : Shared}

theorem isLayered_of_upper {upper : Shared} (isThere : upper.entryAt? path = some entry) :
    IsLayered upper lower path entry := by
  refine ⟨fun given isGiven => ?_, fun absent => ?_⟩
  · exact Option.some.inj (isThere.symm.trans isGiven)
  · rw [isThere] at absent
    cases absent

/-- Two dictionaries are merged, and anything else is replaced. -/
theorem overlay_cases (resolve : Value → Value) (upper lower : Value) :
    overlay resolve upper lower = upper ∨
      ∃ lowerEntries upperEntries, lower = .dict lowerEntries ∧
        resolve upper = .dict upperEntries ∧
          overlay resolve upper lower = .dict
            (overlayEntries resolve upperEntries lowerEntries ++
              newEntries lowerEntries upperEntries) := by
  cases lower with
  | dict lowerEntries =>
      rw [overlay]
      cases head : resolve upper with
      | dict upperEntries => exact .inr ⟨lowerEntries, upperEntries, rfl, rfl, rfl⟩
      | _ => exact .inl rfl
  | _ => exact .inl (by rw [overlay]; simp)

/-- **An entry of one layer over another is the upper layer's**, or the lower layer's where the upper
one has none; entries that are dictionaries are merged and come from both. -/
theorem isLayered_overlay (plain : lower.isKeyed isScalar)
    (isThere : Shared.entryAt? path ⟨overlay cells.resolve upper lower, cells⟩ = some entry)
    (unlike : ∀ entries, entry.head ≠ .dict entries) :
    IsLayered ⟨upper, cells⟩ lower path entry := by
  induction path generalizing upper lower with
  | nil =>
      rcases overlay_cases cells.resolve upper lower with same | ⟨_, _, -, -, merged⟩
      · rw [same] at isThere
        exact isLayered_of_upper isThere
      · rw [merged] at isThere
        obtain rfl := Option.some.inj isThere
        exact absurd rfl (unlike _)
  | cons key rest inductionHypothesis =>
      rcases overlay_cases cells.resolve upper lower with
        same | ⟨lowerEntries, upperEntries, rfl, isDict, merged⟩
      · rw [same] at isThere
        exact isLayered_of_upper isThere
      · have upperAt : Shared.entryAt? (key :: rest) ⟨upper, cells⟩ =
            (Entries.get? upperEntries key).bind fun part => Shared.entryAt? rest ⟨part, cells⟩ := by
          rw [Shared.entryAt?, Shared.head, isDict]
          rfl
        have mergedAt : Shared.entryAt? (key :: rest) ⟨overlay cells.resolve upper
              (.dict lowerEntries), cells⟩ =
            (Entries.get? (overlayEntries cells.resolve upperEntries lowerEntries ++
              newEntries lowerEntries upperEntries) key).bind fun part =>
                Shared.entryAt? rest ⟨part, cells⟩ := by
          rw [merged]
          rfl
        have lowerAt : (Value.dict lowerEntries).entryAt? (key :: rest) =
            (Entries.get? lowerEntries key).bind (Value.entryAt? rest) := rfl
        rw [mergedAt, get?_overlaid] at isThere
        cases inLower : Entries.get? lowerEntries key with
        | none =>
            rw [inLower] at isThere
            exact isLayered_of_upper (by rw [upperAt]; exact isThere)
        | some low =>
            rw [inLower] at isThere
            have lowPlain := Data.Value.isKeyed_of_get? plain inLower
            cases inUpper : Entries.get? upperEntries key with
            | some high =>
                have both : IsLayered ⟨high, cells⟩ low rest entry := by
                  refine inductionHypothesis lowPlain ?_
                  simp only [overlaid, inUpper, Option.bind_some] at isThere
                  exact isThere
                unfold IsLayered
                rw [upperAt, lowerAt, inUpper, inLower]
                exact both
            | none =>
                have isLower : Shared.entryAt? rest ⟨low, cells⟩ = some entry := by
                  simp only [overlaid, inUpper, Option.bind_some] at isThere
                  exact isThere
                refine ⟨fun given isGiven => ?_, fun _ => ?_⟩
                · rw [upperAt, inUpper] at isGiven
                  cases isGiven
                · rw [lowerAt, inLower]
                  exact entryAt?_of_isKeyed lowPlain isLower unlike

/-- Two layers are merged where the upper one is a dictionary too. -/
theorem mergeShared_eq_ok {lowerEntries : Entries} {upper merged : Shared}
    (merges : mergeShared (.dict lowerEntries) upper = .ok merged) :
    merged = ⟨overlay upper.cells.resolve upper.root (.dict lowerEntries), upper.cells⟩ ∧
      ∃ entries, merged.root = .dict entries := by
  unfold mergeShared mergeWith at merges
  cases head : upper.cells.resolve upper.root with
  | dict upperEntries =>
      rw [head] at merges
      obtain rfl := Except.ok.inj merges
      refine ⟨rfl, ?_⟩
      rw [Shared.part, overlay, head]
      exact ⟨_, rfl⟩
  | _ =>
      rw [head] at merges
      cases merges

end Settings
end Provenance
