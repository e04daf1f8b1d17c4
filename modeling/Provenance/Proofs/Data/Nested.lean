import Provenance.Data.Part
import Provenance.Proofs.Data.Places

/-!
Contract: dictionaries within dictionaries, and what becomes of them.

Owns:
- `Value.Narrowed` and `Cells.Narrowed`, values and cells in which scalars have replaced parts;
- `Cells.IsNested` and `Shared.IsNested`, dictionaries within dictionaries with text keys, none of
  them shared;
- that what was nested still is when it is narrowed, and that its parts are;
- `Value.isKeyed` and `Cells.textKeyed_of_resolve`, a test for text keys throughout;
- `Shared.isNested_plain`: values without cells are nested as soon as their keys are texts.

Does **not** own: which parts are replaced.
-/

set_option autoImplicit false

namespace Provenance.Data

/-- What becomes of a value when parts of it under keys are replaced by scalars. -/
inductive Value.Narrowed : Value → Value → Prop
  | refl (value : Value) : Narrowed value value
  | scalar (value : Value) (new : Scalar) : Narrowed value (.scalar new)
  | entry {before after : Entries} {key : Scalar} {old new : Value} :
    Narrowed old new → Narrowed (.dict (before ++ (key, old) :: after))
      (.dict (before ++ (key, new) :: after))

namespace Value.Narrowed

variable {value value' : Value} {entries : Entries} {step : Step} {part : Value}

theorem of_link {cell : Nat} {kind : Kind} (narrowed : value.Narrowed (.link cell kind)) :
    value = .link cell kind := by
  cases narrowed
  rfl

theorem of_dict (narrowed : value.Narrowed (.dict entries)) :
    ∃ wide : Entries, value = .dict wide ∧ wide.keys = entries.keys := by
  cases narrowed with
  | refl => exact ⟨entries, rfl, rfl⟩
  | entry _ => exact ⟨_, rfl, by simp [Entries.keys]⟩

theorem entry? {key : String} (narrowed : value.Narrowed value')
    (found : value'.entry? key = some part) :
    ∃ wide, value.entry? key = some wide ∧ wide.Narrowed part := by
  cases narrowed with
  | refl => exact ⟨part, found, .refl part⟩
  | scalar => cases found
  | @entry before after other old new inner =>
      rcases Entries.get?_replaced found with unchanged | ⟨rfl, wide⟩
      · exact ⟨part, unchanged, .refl part⟩
      · exact ⟨old, wide, inner⟩

/-- A part of a narrowed value was there before, at the same step. -/
theorem inside (narrowed : value.Narrowed value') (found : value'.inside step = some part) :
    ∃ wide, value.inside step = some wide ∧ wide.Narrowed part := by
  cases narrowed with
  | refl => exact ⟨part, found, .refl part⟩
  | scalar => cases step <;> cases found
  | @entry before after key old new inner =>
      cases step with
      | item index => cases found
      | entry index =>
          rw [Value.inside] at found ⊢
          rw [List.getElem?_append] at found ⊢
          by_cases early : index < before.length
          · rw [if_pos early] at found ⊢
            exact ⟨part, found, .refl part⟩
          · rw [if_neg early] at found ⊢
            cases offset : index - before.length with
            | zero =>
                rw [offset] at found
                obtain rfl := Option.some.inj found
                exact ⟨old, rfl, inner⟩
            | succ rest =>
                rw [offset] at found
                exact ⟨part, found, .refl part⟩

end Value.Narrowed

namespace Cells

/-- What becomes of cells when parts of their contents are replaced by scalars. -/
structure Narrowed (cells cells' : Cells) : Prop where
  size_eq : cells'.size = cells.size
  content : ∀ {cell : Nat} {narrow : Value}, cells'[cell]? = some narrow →
    ∃ wide, cells[cell]? = some wide ∧ wide.Narrowed narrow

variable {cells cells' : Cells} {value value' found content : Value} {place : Place} {cell : Nat}
  {kind : Kind} {around : List Nat} {entries inner : Entries} {step : Step}

namespace Narrowed

theorem refl (cells : Cells) : cells.Narrowed cells :=
  ⟨rfl, fun {_ narrow} holds => ⟨narrow, holds, .refl narrow⟩⟩

theorem set {wide narrow : Value} (holds : cells[cell]? = some wide)
    (narrowed : wide.Narrowed narrow) : cells.Narrowed (cells.setIfInBounds cell narrow) where
  size_eq := Array.size_setIfInBounds
  content := by
    intro other content holdsOther
    rw [Array.getElem?_setIfInBounds] at holdsOther
    by_cases same : cell = other
    · subst same
      rw [if_pos rfl] at holdsOther
      split at holdsOther
      · obtain rfl := Option.some.inj holdsOther
        exact ⟨wide, holds, narrowed⟩
      · cases holdsOther
    · rw [if_neg same] at holdsOther
      exact ⟨content, holdsOther, .refl content⟩

theorem resolve (narrowed : cells.Narrowed cells') (values : value.Narrowed value') :
    (cells.resolve value).Narrowed (cells'.resolve value') := by
  cases values with
  | scalar => exact .scalar _ _
  | entry inner => exact .entry inner
  | refl =>
      cases value with
      | link cell kind =>
          cases holds : cells'[cell]? with
          | some content =>
              obtain ⟨wide, holdsWide, inner⟩ := narrowed.content holds
              rw [resolve_link_of_some holds, resolve_link_of_some holdsWide]
              exact inner
          | none =>
              have outside : cells[cell]? = none := by
                rw [Array.getElem?_eq_none_iff, narrowed.size_eq] at holds
                exact Array.getElem?_eq_none_iff.mpr holds
              rw [resolve_link_of_none holds, resolve_link_of_none outside]
              exact .refl _
      | _ => exact .refl _

/-- What is at a place of a narrowed value was wider there before. -/
theorem at? (narrowed : cells.Narrowed cells') (values : value.Narrowed value')
    (isThere : cells'.at? place value' = some found) :
    ∃ wide, cells.at? place value = some wide ∧ wide.Narrowed found := by
  induction place generalizing value value' with
  | nil =>
      obtain rfl := Option.some.inj isThere
      exact ⟨value, rfl, values⟩
  | cons step rest inductionHypothesis =>
      rw [Cells.at?, Option.bind_eq_some_iff] at isThere
      obtain ⟨part, inside, behind⟩ := isThere
      obtain ⟨widePart, insideWide, parts⟩ := (narrowed.resolve values).inside inside
      obtain ⟨wide, isThereWide, wider⟩ := inductionHypothesis parts behind
      exact ⟨wide, by rw [Cells.at?, insideWide, Option.bind_some, isThereWide], wider⟩

theorem at?_link (narrowed : cells.Narrowed cells') (values : value.Narrowed value')
    (isThere : cells'.at? place value' = some (.link cell kind)) :
    cells.at? place value = some (.link cell kind) := by
  obtain ⟨wide, isThereWide, wider⟩ := narrowed.at? values isThere
  rw [isThereWide, wider.of_link]

theorem reaches (narrowed : cells.Narrowed cells') (values : value.Narrowed value')
    (reaches : cells'.Reaches value' cell) : cells.Reaches value cell := by
  obtain ⟨place, kind, isThere⟩ := reaches
  exact ⟨place, kind, narrowed.at?_link values isThere⟩

/-- Keys stay texts where scalars replace parts. -/
theorem textKeyed (narrowed : cells.Narrowed cells') (values : value.Narrowed value')
    (textKeyed : cells.TextKeyed value) : cells'.TextKeyed value' := by
  intro place found entries keyed isThere isDict
  obtain ⟨wide, isThereWide, wider⟩ := narrowed.at? values isThere
  have heads := narrowed.resolve wider
  rw [isDict] at heads
  obtain ⟨wideEntries, isDictWide, keys_eq⟩ := heads.of_dict
  rw [← keys_eq]
  exact textKeyed place wide wideEntries keyed isThereWide isDictWide

end Narrowed

/-- Inside some cells: dictionaries within dictionaries with text keys, none of them shared and
none of them in a cell around. -/
structure IsNested (cells : Cells) (around : List Nat) (value : Value) : Prop where
  collections : cells.HoldsCollections
  textKeyed : cells.TextKeyed value
  unshared : cells.Unshared value
  isAround : cells.IsAround around
  apart : ∀ {cell : Nat}, cells.Reaches value cell → cell ∉ around

namespace IsNested

theorem narrowed (nested : cells.IsNested around value) (narrowed : cells.Narrowed cells')
    (values : value.Narrowed value') : cells'.IsNested around value' where
  collections := by
    intro cell other kind holds
    obtain ⟨wide, holdsWide, wider⟩ := narrowed.content holds
    exact nested.collections cell other kind (by rw [holdsWide, wider.of_link])
  textKeyed := narrowed.textKeyed values nested.textKeyed
  unshared := by
    intro place other cell kind otherKind entries keyed isThere isThereToo holds
    obtain ⟨wide, holdsWide, wider⟩ := narrowed.content holds
    obtain ⟨wideEntries, rfl, -⟩ := wider.of_dict
    exact nested.unshared place other cell kind otherKind wideEntries keyed
      (narrowed.at?_link values isThere) (narrowed.at?_link values isThereToo) holdsWide
  isAround := nested.isAround.congr narrowed.size_eq
  apart := fun reaches => nested.apart (narrowed.reaches values reaches)

/-! ## Parts of a nested value -/

theorem textKeys (nested : cells.IsNested around value) (isDict : cells.resolve value = .dict entries) :
    ∀ key ∈ Entries.keys entries, ∃ name, key = .text name :=
  nested.textKeyed [] value entries .nil rfl isDict

/-- The value of an entry is nested. -/
theorem entry (nested : cells.IsNested around value) {index : Nat} {part : Value}
    (inside : value.inside (.entry index) = some part) : cells.IsNested around part where
  collections := nested.collections
  textKeyed := by
    intro place found entries keyed isThere isDict
    exact nested.textKeyed (.entry index :: place) found entries (keyed.entry index)
      (by rw [at?_cons_of_inside inside, isThere]) isDict
  unshared := by
    intro place other cell kind otherKind entries keyed isThere isThereToo holds
    have same := nested.unshared (.entry index :: place) (.entry index :: other) cell kind
      otherKind entries (keyed.entry index) (by rw [at?_cons_of_inside inside, isThere])
      (by rw [at?_cons_of_inside inside, isThereToo]) holds
    exact List.cons_injective same
  isAround := nested.isAround
  apart := fun reaches => nested.apart (reaches.of_inside inside)

/-- The dictionary behind a link is nested inside its cell too: it does not lead back there. -/
theorem linked (nested : cells.IsNested around (.link cell kind))
    (holds : cells[cell]? = some (.dict inner)) :
    cell ∉ around ∧ cells.IsNested (cell :: around) (.dict inner) := by
  have outside : cell ∉ around := nested.apart reaches_link
  have collections := nested.collections
  refine ⟨outside, collections, ?_, ?_, nested.isAround.cons outside holds, ?_⟩
  · intro place found entries keyed isThere isDict
    cases place with
    | nil =>
        obtain rfl := Option.some.inj isThere
        refine nested.textKeyed [] (.link cell kind) entries .nil rfl ?_
        rw [resolve_link_of_some holds]
        exact isDict
    | cons step rest =>
        exact nested.textKeyed (step :: rest) found entries keyed
          (by rw [Cells.at?_link collections holds, isThere]) isDict
  · intro place other found kind otherKind entries keyed isThere isThereToo holdsFound
    cases place with
    | nil => cases isThere
    | cons step rest =>
        cases other with
        | nil => cases isThereToo
        | cons otherStep otherRest =>
            exact nested.unshared _ _ found kind otherKind entries keyed
              (by rw [Cells.at?_link collections holds, isThere])
              (by rw [Cells.at?_link collections holds, isThereToo]) holdsFound
  · intro other reaches member
    rcases List.mem_cons.mp member with rfl | inAround
    · obtain ⟨step, place, kind', isThere⟩ :=
        exists_at?_of_reaches collections holds reaches kind
      have same := nested.unshared [] (step :: place) other kind kind' inner .nil rfl isThere holds
      cases same
    · exact nested.apart (reaches.of_cell collections holds) inAround

/-- What keys lead to under one entry is not reached from another entry. -/
theorem not_reaches_of_entry (nested : cells.IsNested around value) {index other : Nat}
    {part otherPart : Value} (inside : value.inside (.entry index) = some part)
    (insideOther : value.inside (.entry other) = some otherPart) (different : other ≠ index)
    (keyed : place.IsKeyed) (isThere : cells.at? place part = some (.link cell kind))
    (holds : cells[cell]? = some (.dict inner)) : ¬ cells.Reaches otherPart cell := by
  rintro ⟨otherPlace, otherKind, isThereToo⟩
  have same := nested.unshared (.entry index :: place) (.entry other :: otherPlace) cell kind
    otherKind inner (keyed.entry index) (by rw [at?_cons_of_inside inside, isThere])
    (by rw [at?_cons_of_inside insideOther, isThereToo]) holds
  exact different (Step.entry.inj (List.cons.inj same).1).symm

end IsNested
end Cells

/-- A dictionary within which there are dictionaries with text keys, none of them shared. -/
structure Shared.IsNested (shared : Shared) : Prop where
  isDict : ∃ entries, shared.root = .dict entries
  collections : shared.cells.HoldsCollections
  textKeyed : shared.cells.TextKeyed shared.root
  unshared : shared.cells.Unshared shared.root

/-! ## Values that are nested -/

mutual

/-- Whether all keys in dictionaries within dictionaries are texts, and all other values in them
pass a test. -/
def Value.isKeyed (leaf : Value → Bool) : Value → Bool
  | .dict entries => Value.entriesAreKeyed leaf entries
  | other => leaf other

def Value.entriesAreKeyed (leaf : Value → Bool) : List (Scalar × Value) → Bool
  | [] => true
  | (.text _, value) :: rest => value.isKeyed leaf && Value.entriesAreKeyed leaf rest
  | _ :: _ => false

end

theorem Value.isKeyed_dict_iff {leaf : Value → Bool} {entries : Entries} :
    (Value.dict entries).isKeyed leaf ↔ entries.AreNamed fun value => value.isKeyed leaf := by
  rw [Value.isKeyed]
  induction entries with
  | nil => exact ⟨fun _ => .nil, fun _ => rfl⟩
  | cons entry rest inductionHypothesis =>
      obtain ⟨first, content⟩ := entry
      rw [Entries.AreNamed, List.forall_mem_cons]
      cases first with
      | text name =>
          rw [Value.entriesAreKeyed, Bool.and_eq_true]
          exact and_congr ⟨fun keyed => ⟨⟨name, rfl⟩, keyed⟩, And.right⟩ inductionHypothesis
      | _ =>
          constructor
          · intro keyed
            cases keyed
          · intro areNamed
            obtain ⟨_, isText⟩ := areNamed.1.1
            cases isText

theorem Value.isKeyed_of_mem {leaf : Value → Bool} {entries : Entries}
    (keyed : (Value.dict entries).isKeyed leaf) {key : Scalar} {value : Value}
    (member : (key, value) ∈ entries) : (∃ name, key = .text name) ∧ value.isKeyed leaf :=
  Value.isKeyed_dict_iff.mp keyed (key, value) member

theorem Value.isKeyed_of_get? {leaf : Value → Bool} {entries : Entries}
    (keyed : (Value.dict entries).isKeyed leaf) {key : String} {value : Value}
    (isEntry : Entries.get? entries key = some value) : value.isKeyed leaf := by
  obtain ⟨before, after, rfl, -⟩ := Entries.exists_split_of_get? isEntry
  exact (Value.isKeyed_of_mem keyed (List.mem_append_right before List.mem_cons_self)).2

/-- A value has text keys throughout if its dictionaries do, and what its links stand for is of the
same kind. -/
theorem Cells.textKeyed_of_resolve {leaf : Value → Bool} {cells : Cells} {value : Value}
    (resolved : ∀ value : Value, value.isKeyed leaf → (cells.resolve value).isKeyed leaf)
    (rootKeyed : value.isKeyed leaf) : cells.TextKeyed value := by
  intro place found entries keyed isThere isDict key member
  induction place generalizing value with
  | nil =>
      obtain rfl := Option.some.inj isThere
      have headKeyed := resolved value rootKeyed
      rw [isDict] at headKeyed
      obtain ⟨entry, isEntry, rfl⟩ := List.mem_map.mp member
      exact (Value.isKeyed_of_mem headKeyed isEntry).1
  | cons step rest inductionHypothesis =>
      obtain ⟨index, rfl⟩ := keyed step List.mem_cons_self
      rw [Cells.at?, Option.bind_eq_some_iff] at isThere
      obtain ⟨part, inside, behind⟩ := isThere
      have headKeyed := resolved value rootKeyed
      cases head : cells.resolve value with
      | dict entries =>
          rw [head] at inside headKeyed
          obtain ⟨entry, isEntry, rfl⟩ := Option.map_eq_some_iff.mp inside
          exact inductionHypothesis
            (Value.isKeyed_of_mem headKeyed (List.mem_of_getElem? isEntry)).2
            (fun step later => keyed step (List.mem_cons_of_mem _ later)) behind
      | _ =>
          rw [head] at inside
          cases inside

theorem Cells.textKeyed_of_isKeyed {cells : Cells} {value : Value}
    (rootKeyed : value.isKeyed fun _ => true)
    (cellsKeyed : ∀ content ∈ cells, content.isKeyed fun _ => true) : cells.TextKeyed value := by
  refine textKeyed_of_resolve (fun value valueKeyed => ?_) rootKeyed
  cases value with
  | link cell kind =>
      cases holds : cells[cell]? with
      | none =>
          rw [resolve_link_of_none holds]
          exact valueKeyed
      | some content =>
          rw [resolve_link_of_some holds]
          exact cellsKeyed content (Array.mem_of_getElem? holds)
  | _ => exact valueKeyed

/-- Without cells nothing is shared. -/
theorem Shared.isNested_plain {entries : Entries}
    (textKeyed : Cells.TextKeyed #[] (.dict entries)) :
    (Shared.plain (.dict entries)).IsNested where
  isDict := ⟨entries, rfl⟩
  collections := fun _ _ _ holds => by cases holds
  textKeyed := textKeyed
  unshared := fun _ _ _ _ _ _ _ _ _ holds => by cases holds

theorem Shared.IsNested.inCells {shared : Shared} (nested : shared.IsNested) :
    shared.cells.IsNested [] shared.root :=
  ⟨nested.collections, nested.textKeyed, nested.unshared, .nil, fun _ => List.not_mem_nil⟩

end Provenance.Data
