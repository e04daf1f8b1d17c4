import Mathlib.Data.List.Nodup
import Mathlib.Data.List.Perm.Subperm
import Mathlib.Data.List.Range
import Provenance.Data.Shared
import Provenance.Proofs.Data.Entries

/-!
Contract: the places of a shared value, and what is seen there.

Owns:
- `Place`, `Cells.at?` and `Cells.Reaches`: where a value leads to;
- `Cells.Unshared`, no dictionary that keys lead to stands at a second place;
- `Cells.shown`, a value without its links, inside some cells;
- `Cells.shown_congr`, which says that only what a value reaches is seen of it.

Does **not** own: what changes a cell.

## Places

A place is a way through a document: from a dictionary to the value of an entry, from
a list to an item.  Links do not count as steps.  A collection that contains itself
stands at infinitely many places.
-/

set_option autoImplicit false

namespace Provenance.Data

/-- A step from a collection to a part of it. -/
inductive Step where
  | entry (index : Nat)
  | item (index : Nat)
  deriving DecidableEq, Repr

abbrev Place := List Step

/-- Whether only keys lead to a place. -/
def Place.IsKeyed (place : Place) : Prop :=
  ∀ step ∈ place, ∃ index, step = .entry index

theorem Place.IsKeyed.nil : Place.IsKeyed [] :=
  fun _ member => absurd member List.not_mem_nil

theorem Place.IsKeyed.entry {place : Place} (keyed : place.IsKeyed) (index : Nat) :
    Place.IsKeyed (.entry index :: place) := by
  intro step member
  rcases List.mem_cons.mp member with rfl | later
  · exact ⟨index, rfl⟩
  · exact keyed step later

/-- The part that a step leads to. -/
def Value.inside : Value → Step → Option Value
  | .dict entries, .entry index => (entries[index]?).map Prod.snd
  | .list items, .item index => items[index]?
  | .pairs entries, .item index =>
    (entries.flatMap fun (first, second) => [first, second])[index]?
  | _, _ => none

namespace Cells

variable {cells cells' : Cells} {around around' : List Nat} {value part content : Value}
  {entries : Entries} {cell other : Nat} {kind : Kind} {step : Step} {place : Place}

/-- What is found at a place. -/
def at? (cells : Cells) : Place → Value → Option Value
  | [], value => some value
  | step :: rest, value => ((cells.resolve value).inside step).bind (at? cells rest)

/-- A link to a cell is somewhere in what a value shows. -/
def Reaches (cells : Cells) (value : Value) (cell : Nat) : Prop :=
  ∃ place kind, cells.at? place value = some (.link cell kind)

/-- A link leads to a collection, and not to another link. -/
def HoldsCollections (cells : Cells) : Prop :=
  ∀ (cell other : Nat) (kind : Kind), cells[cell]? ≠ some (Value.link other kind)

/-- No dictionary that keys lead to stands at another place too. -/
def Unshared (cells : Cells) (value : Value) : Prop :=
  ∀ (place other : Place) (cell : Nat) (kind otherKind : Kind) (entries : Entries),
    place.IsKeyed → cells.at? place value = some (.link cell kind) →
      cells.at? other value = some (.link cell otherKind) →
        cells[cell]? = some (.dict entries) → place = other

/-- The keys of every dictionary that keys lead to are texts. -/
def TextKeyed (cells : Cells) (value : Value) : Prop :=
  ∀ (place : Place) (found : Value) (entries : Entries),
    place.IsKeyed → cells.at? place value = some found →
    cells.resolve found = .dict entries →
      ∀ key ∈ Entries.keys entries, ∃ name, key = Scalar.text name

/-! ## What a value reaches -/

theorem resolve_link_of_some (holds : cells[cell]? = some content) :
    cells.resolve (.link cell kind) = content := by
  rw [resolve, holds, Option.getD_some]

theorem resolve_link_of_none (empty : cells[cell]? = none) :
    cells.resolve (.link cell kind) = .link cell kind := by
  rw [resolve, empty, Option.getD_none]

theorem resolve_of_inside (inside : value.inside step = some part) :
    cells.resolve value = value := by
  cases value with
  | link cell kind => cases inside
  | _ => rfl

theorem getElem?_of_resolve_dict (isDict : cells.resolve (.link cell kind) = .dict entries) :
    cells[cell]? = some (.dict entries) := by
  cases holds : cells[cell]? with
  | none =>
      rw [resolve_link_of_none holds] at isDict
      cases isDict
  | some content =>
      rw [resolve_link_of_some holds] at isDict
      rw [isDict]

theorem at?_append (first second : Place) (value : Value) :
    cells.at? (first ++ second) value = (cells.at? first value).bind (cells.at? second) := by
  induction first generalizing value with
  | nil => rfl
  | cons step rest inductionHypothesis =>
      rw [List.cons_append, at?, at?, Option.bind_assoc]
      congr 1
      funext part
      exact inductionHypothesis part

theorem at?_cons_of_inside (inside : value.inside step = some part) (place : Place) :
    cells.at? (step :: place) value = cells.at? place part := by
  rw [at?, resolve_of_inside inside, inside, Option.bind_some]

theorem Reaches.of_inside (inside : value.inside step = some part)
    (reaches : cells.Reaches part cell) : cells.Reaches value cell := by
  obtain ⟨place, kind, found⟩ := reaches
  exact ⟨step :: place, kind, by rw [at?_cons_of_inside inside, found]⟩

theorem ne_link (collections : cells.HoldsCollections) (holds : cells[cell]? = some content) :
    cells.resolve content = content ∧ ∀ other kind, content ≠ .link other kind := by
  have unlike : ∀ other kind, content ≠ .link other kind := by
    rintro other kind rfl
    exact collections cell other kind holds
  refine ⟨?_, unlike⟩
  cases content with
  | link other kind => exact absurd rfl (unlike other kind)
  | _ => rfl

/-- Behind a link stands what is in its cell. -/
theorem at?_link (collections : cells.HoldsCollections) (holds : cells[cell]? = some content)
    (step : Step) (place : Place) :
    cells.at? (step :: place) (.link cell kind) = cells.at? (step :: place) content := by
  rw [at?, at?, resolve_link_of_some holds, (ne_link collections holds).1]

/-- What a cell's content reaches is reached behind a link to it. -/
theorem exists_at?_of_reaches (collections : cells.HoldsCollections)
    (holds : cells[cell]? = some content) (reaches : cells.Reaches content other) (kind : Kind) :
    ∃ step place kind', cells.at? (step :: place) (.link cell kind) = some (.link other kind') := by
  obtain ⟨place, kind', found⟩ := reaches
  cases place with
  | nil => exact absurd (Option.some.inj found) ((ne_link collections holds).2 other kind')
  | cons step place => exact ⟨step, place, kind', by rw [at?_link collections holds, found]⟩

theorem Reaches.of_cell (collections : cells.HoldsCollections)
    (holds : cells[cell]? = some content) (reaches : cells.Reaches content other) :
    cells.Reaches (.link cell kind) other := by
  obtain ⟨step, place, kind', found⟩ := exists_at?_of_reaches collections holds reaches kind
  exact ⟨step :: place, kind', found⟩

theorem reaches_link : cells.Reaches (.link cell kind) cell :=
  ⟨[], kind, rfl⟩

/-! ## Values without their links -/

theorem mapEntryLinks_eq_mapValues (change : Nat → Kind → Value) (entries : Entries) :
    Value.mapEntryLinks change entries = entries.mapValues (·.mapLinks change) := by
  induction entries with
  | nil => rfl
  | cons entry rest inductionHypothesis =>
      rw [Value.mapEntryLinks, inductionHypothesis]
      rfl

section Links

variable {change change' : Nat → Kind → Value}

/-- Two changes agree on the links in a value. -/
def AgreesOn (cells : Cells) (change change' : Nat → Kind → Value) (value : Value) : Prop :=
  ∀ place cell kind, cells.at? place value = some (.link cell kind) →
    change cell kind = change' cell kind

theorem AgreesOn.of_inside (agrees : AgreesOn cells change change' value) (step : Step)
    (inside : value.inside step = some part) : AgreesOn cells change change' part := by
  intro place cell kind found
  exact agrees (step :: place) cell kind (by rw [at?_cons_of_inside inside, found])

mutual

theorem mapLinks_congr : ∀ {value : Value}, AgreesOn cells change change' value →
    value.mapLinks change = value.mapLinks change'
  | .scalar _, _ => rfl
  | .set _, _ => rfl
  | .link cell kind, agrees => agrees [] cell kind rfl
  | .list items, agrees => by
      rw [Value.mapLinks, Value.mapLinks, mapItemLinks_congr]
      intro item member
      obtain ⟨index, found⟩ := List.mem_iff_getElem?.mp member
      exact agrees.of_inside (.item index) found
  | .pairs entries, agrees => by
      rw [Value.mapLinks, Value.mapLinks, mapPairLinks_congr]
      intro entry member item among
      have flat : item ∈ entries.flatMap fun (first, second) => [first, second] :=
        List.mem_flatMap.mpr ⟨entry, member, among⟩
      obtain ⟨index, found⟩ := List.mem_iff_getElem?.mp flat
      exact agrees.of_inside (.item index) found
  | .dict entries, agrees => by
      rw [Value.mapLinks, Value.mapLinks, mapEntryLinks_congr]
      intro entry member
      obtain ⟨index, found⟩ := List.mem_iff_getElem?.mp member
      exact agrees.of_inside (.entry index) (by rw [Value.inside, found, Option.map_some])

theorem mapItemLinks_congr : ∀ {items : List Value},
    (∀ item ∈ items, AgreesOn cells change change' item) →
      Value.mapItemLinks change items = Value.mapItemLinks change' items
  | [], _ => rfl
  | item :: rest, agree => by
      rw [Value.mapItemLinks, Value.mapItemLinks, mapLinks_congr (agree item List.mem_cons_self),
        mapItemLinks_congr fun other member => agree other (List.mem_cons_of_mem item member)]

theorem mapPairLinks_congr : ∀ {entries : List (Value × Value)},
    (∀ entry ∈ entries, ∀ item ∈ [entry.1, entry.2], AgreesOn cells change change' item) →
      Value.mapPairLinks change entries = Value.mapPairLinks change' entries
  | [], _ => rfl
  | (first, second) :: rest, agree => by
      have agreeHere := agree (first, second) List.mem_cons_self
      rw [Value.mapPairLinks, Value.mapPairLinks,
        mapLinks_congr (agreeHere first (by simp)), mapLinks_congr (agreeHere second (by simp)),
        mapPairLinks_congr fun other member => agree other (List.mem_cons_of_mem _ member)]

theorem mapEntryLinks_congr : ∀ {entries : List (Scalar × Value)},
    (∀ entry ∈ entries, AgreesOn cells change change' entry.2) →
      Value.mapEntryLinks change entries = Value.mapEntryLinks change' entries
  | [], _ => rfl
  | (key, value) :: rest, agree => by
      rw [Value.mapEntryLinks, Value.mapEntryLinks,
        mapLinks_congr (agree (key, value) List.mem_cons_self),
        mapEntryLinks_congr fun other member => agree other (List.mem_cons_of_mem _ member)]

end

end Links

/-- The cells around a value: distinct ones that are there. -/
structure IsAround (cells : Cells) (around : List Nat) : Prop where
  nodup : around.Nodup
  bounded : ∀ cell ∈ around, cell < cells.size

namespace IsAround

theorem nil : cells.IsAround [] :=
  ⟨List.nodup_nil, fun _ member => absurd member List.not_mem_nil⟩

theorem cons (isAround : cells.IsAround around) (outside : cell ∉ around)
    (holds : cells[cell]? = some content) : cells.IsAround (cell :: around) where
  nodup := List.nodup_cons.mpr ⟨outside, isAround.nodup⟩
  bounded := by
    intro other member
    rcases List.mem_cons.mp member with rfl | later
    · exact (Array.getElem?_eq_some_iff.mp holds).1
    · exact isAround.bounded other later

theorem length_le (isAround : cells.IsAround around) : around.length ≤ cells.size := by
  have within : around ⊆ List.range cells.size := fun cell member =>
    List.mem_range.mpr (isAround.bounded cell member)
  have count := (isAround.nodup.subperm within).length_le
  rwa [List.length_range] at count

theorem congr (isAround : cells.IsAround around) (size_eq : cells'.size = cells.size) :
    cells'.IsAround around :=
  ⟨isAround.nodup, fun cell member => by rw [size_eq]; exact isAround.bounded cell member⟩

end IsAround

theorem unfold_link_of_mem (levels : Nat) (member : cell ∈ around) :
    cells.unfold levels around (.link cell kind) = .link cell kind := by
  cases levels with
  | zero => rfl
  | succ levels => rw [unfold, Value.mapLinks, if_pos (List.contains_iff_mem.mpr member)]

/-- Only what a value reaches is seen of it: the contents of those cells, and which of them are
around it.  The levels do not matter if there are enough. -/
theorem unfold_congr (collections : cells.HoldsCollections) (size_eq : cells'.size = cells.size)
    (isAround : cells.IsAround around) (isAround' : cells'.IsAround around')
    {levels levels' : Nat} (enough : cells.size < levels + around.length)
    (enough' : cells.size < levels' + around'.length)
    (agree : ∀ cell, cells.Reaches value cell →
      cells'[cell]? = cells[cell]? ∧ (cell ∈ around ↔ cell ∈ around')) :
    cells.unfold levels around value = cells'.unfold levels' around' value := by
  -- A level is left wherever a link is followed, since the cells around are distinct.
  induction levels generalizing levels' around around' value with
  | zero =>
      have few := isAround.length_le
      omega
  | succ levels inductionHypothesis =>
      have few' := isAround'.length_le
      obtain ⟨levels', rfl⟩ : ∃ rest, levels' = rest + 1 := ⟨levels' - 1, by omega⟩
      rw [unfold, unfold]
      refine mapLinks_congr (show AgreesOn cells _ _ value from ?_)
      intro place cell kind found
      obtain ⟨same, aroundBoth⟩ := agree cell ⟨place, kind, found⟩
      simp only [List.contains_iff_mem]
      by_cases inside : cell ∈ around
      · rw [if_pos inside, if_pos (aroundBoth.mp inside)]
      · have outside' : cell ∉ around' := fun member => inside (aroundBoth.mpr member)
        rw [if_neg inside, if_neg outside']
        cases holds : cells[cell]? with
        | none =>
            rw [resolve_link_of_none holds, resolve_link_of_none (by rw [same, holds]),
              unfold_link_of_mem _ List.mem_cons_self, unfold_link_of_mem _ List.mem_cons_self]
        | some content =>
            have holds' : cells'[cell]? = some content := by rw [same, holds]
            rw [resolve_link_of_some holds, resolve_link_of_some holds']
            refine inductionHypothesis (isAround.cons inside holds) (isAround'.cons outside' holds')
              (by rw [List.length_cons]; omega) (by rw [List.length_cons]; omega) ?_
            intro other reaches
            obtain ⟨step, behind, kind', foundOther⟩ :=
              exists_at?_of_reaches collections holds reaches kind
            have onward : cells.Reaches value other :=
              ⟨place ++ step :: behind, kind', by
                rw [at?_append, found, Option.bind_some, foundOther]⟩
            obtain ⟨sameOther, aroundOther⟩ := agree other onward
            exact ⟨sameOther, by rw [List.mem_cons, List.mem_cons, aroundOther]⟩

/-! ## What is seen of a value -/

/-- The value without its links, as it is seen inside some cells. -/
def shown (cells : Cells) (around : List Nat) (value : Value) : Value :=
  cells.unfold (cells.size + 1 - around.length) around value

theorem shown_congr (collections : cells.HoldsCollections) (size_eq : cells'.size = cells.size)
    (isAround : cells.IsAround around) (isAround' : cells.IsAround around')
    (agree : ∀ cell, cells.Reaches value cell →
      cells'[cell]? = cells[cell]? ∧ (cell ∈ around ↔ cell ∈ around')) :
    cells.shown around value = cells'.shown around' value := by
  have few := isAround.length_le
  have few' := isAround'.length_le
  exact unfold_congr collections size_eq isAround (isAround'.congr size_eq) (by omega)
    (by omega) agree

theorem IsAround.exists_levels (isAround : cells.IsAround around) :
    ∃ levels, cells.size + 1 - around.length = levels + 1 ∧
      cells.size + 1 - (around.length + 1) = levels := by
  have few := isAround.length_le
  exact ⟨cells.size - around.length, by omega, by omega⟩

theorem shown_scalar (scalar : Scalar) : cells.shown around (.scalar scalar) = .scalar scalar := by
  unfold shown
  cases cells.size + 1 - around.length <;> rfl

theorem shown_dict (isAround : cells.IsAround around) (entries : Entries) :
    cells.shown around (.dict entries) = .dict (entries.mapValues (cells.shown around)) := by
  obtain ⟨levels, levels_eq, -⟩ := isAround.exists_levels
  unfold shown
  rw [levels_eq, unfold, Value.mapLinks, mapEntryLinks_eq_mapValues]
  rfl

theorem shown_link (isAround : cells.IsAround around) (outside : cell ∉ around)
    (holds : cells[cell]? = some content) :
    cells.shown around (.link cell kind) = cells.shown (cell :: around) content := by
  obtain ⟨levels, levels_eq, fewer⟩ := isAround.exists_levels
  have distant : ¬ around.contains cell = true := fun inside =>
    outside (List.contains_iff_mem.mp inside)
  unfold shown
  rw [levels_eq, List.length_cons, fewer, unfold, Value.mapLinks, if_neg distant,
    resolve_link_of_some holds]

/-- A dictionary is seen only where one is. -/
theorem shown_ne_dict (isAround : cells.IsAround around) (collections : cells.HoldsCollections)
    (unlike : ∀ entries, cells.resolve value ≠ .dict entries) (entries : Entries) :
    cells.shown around value ≠ .dict entries := by
  obtain ⟨levels, levels_eq, fewer⟩ := isAround.exists_levels
  have plain : ∀ {levels : Nat} {around : List Nat} {value : Value},
      (∀ cell kind, value ≠ .link cell kind) → (∀ entries, value ≠ .dict entries) →
        cells.unfold levels around value ≠ .dict entries := by
    intro levels around value noLink noDict
    cases levels with
    | zero => exact noDict entries
    | succ levels =>
        cases value with
        | dict inner => exact absurd rfl (noDict inner)
        | link cell kind => exact absurd rfl (noLink cell kind)
        | _ => exact fun equal => by cases equal
  cases value with
  | link cell kind =>
      by_cases inside : cell ∈ around
      · unfold shown
        rw [unfold_link_of_mem _ inside]
        exact fun equal => by cases equal
      · cases holds : cells[cell]? with
        | none =>
            unfold shown
            rw [levels_eq, unfold, Value.mapLinks, resolve_link_of_none holds,
              unfold_link_of_mem levels List.mem_cons_self, ite_self]
            exact fun equal => by cases equal
        | some content =>
            rw [shown_link isAround inside holds]
            rw [resolve_link_of_some holds] at unlike
            exact plain (ne_link collections holds).2 unlike
  | _ => exact plain (fun _ _ equal => by cases equal) unlike

end Cells

theorem Shared.value_eq_shown (shared : Shared) :
    shared.value = shared.cells.shown [] shared.root := rfl

end Provenance.Data
