import Provenance.Proofs.Settings.Tree

/-!
Contract: variables over settings whose dictionaries stand in cells.

Owns:
- `Cells.ChangedUnder`, which cells a walk changes;
- `assignWithin_tracks`: a walk through nested settings does to them what `replaced` does
  to the tree that is seen of them;
- `assigned_eq`, the same for the settings as a whole.

Does **not** own: settings in which a dictionary stands at two places.

## Why the cells do not matter

A walk changes one dictionary, the last one on its way.  If it stands in a cell, it is
changed wherever a link to that cell stands.  In nested settings there is one such
link, and it is on the way of the walk.
-/

set_option autoImplicit false

namespace Provenance

open Data (Scalar Value Entries Shared Cells Place Kind)

/-! ## What a change leaves alone -/

namespace Data.Cells

variable {cells cells' : Cells} {around : List Nat} {part : Value} {before after : Entries}
  {key : Scalar} {cell : Nat} {kind : Kind} {inner : Entries}

/-- Every cell that has changed holds a dictionary to which keys lead. -/
def ChangedUnder (cells cells' : Cells) (value : Value) : Prop :=
  ∀ cell, cells'[cell]? ≠ cells[cell]? → ∃ (place : Place) (kind : Kind) (inner : Entries),
    place.IsKeyed ∧ cells.at? place value = some (.link cell kind) ∧
      cells[cell]? = some (.dict inner)

theorem inside_split :
    (Value.dict (before ++ (key, part) :: after)).inside (.entry before.length) = some part := by
  simp [Value.inside]

theorem ChangedUnder.entry (changed : cells.ChangedUnder cells' part) :
    cells.ChangedUnder cells' (.dict (before ++ (key, part) :: after)) := by
  intro cell different
  obtain ⟨place, kind, inner, keyed, isThere, holds⟩ := changed cell different
  exact ⟨.entry before.length :: place, kind, inner, keyed.entry _,
    by rw [at?_cons_of_inside inside_split, isThere], holds⟩

/-- What is seen of the other entries stays as it is. -/
theorem IsNested.shown_beside
    (nested : cells.IsNested around (.dict (before ++ (key, part) :: after)))
    (size_eq : cells'.size = cells.size) (changed : cells.ChangedUnder cells' part) :
    Entries.mapValues (cells'.shown around) before = Entries.mapValues (cells.shown around) before ∧
      Entries.mapValues (cells'.shown around) after =
        Entries.mapValues (cells.shown around) after := by
  have beside : ∀ (index : Nat) (other : Value), index ≠ before.length →
      (Value.dict (before ++ (key, part) :: after)).inside (.entry index) = some other →
        cells'.shown around other = cells.shown around other := by
    intro index other different inside
    refine (shown_congr nested.collections size_eq nested.isAround nested.isAround ?_).symm
    intro cell reaches
    refine ⟨?_, Iff.rfl⟩
    by_contra differs
    obtain ⟨place, kind, inner, keyed, isThere, holds⟩ := changed cell differs
    exact nested.not_reaches_of_entry inside_split inside different keyed isThere holds reaches
  constructor
  · refine Entries.mapValues_congr fun key other member => ?_
    obtain ⟨index, isAt⟩ := List.mem_iff_getElem?.mp member
    have early : index < before.length := (List.getElem?_eq_some_iff.mp isAt).1
    refine beside index other (Nat.ne_of_lt early) ?_
    rw [Value.inside, List.getElem?_append_left early, isAt, Option.map_some]
  · refine Entries.mapValues_congr fun key other member => ?_
    obtain ⟨index, isAt⟩ := List.mem_iff_getElem?.mp member
    refine beside (before.length + (index + 1)) other (by omega) ?_
    rw [Value.inside, List.getElem?_append_right (Nat.le_add_right _ _), Nat.add_sub_cancel_left,
      List.getElem?_cons_succ, isAt, Option.map_some]

end Data.Cells

namespace Settings

open Data.Cells (ChangedUnder IsNested)

variable {cells : Cells} {around : List Nat} {entries inner : Entries} {new : Scalar}
  {wanted : List String} {levels count cell : Nat} {key : String} {kind : Kind} {part : Value}

/-! ## One level of a walk -/

section Level

variable (texts : ∀ key ∈ Entries.keys entries, ∃ name, key = Scalar.text name) (value : Value)

include texts

theorem assignWithin_of_none (noKey : bestKey? wanted (Entries.texts entries) = none) :
    assignWithin cells value (levels + 1) wanted entries = .ok none := by
  rw [assignWithin]
  simp only [textKeys_eq texts, noKey]

variable (found : bestKey? wanted (Entries.texts entries) = some (key, count))

include found

theorem assignWithin_of_end (ends : count = wanted.length) :
    assignWithin cells value (levels + 1) wanted entries =
      .ok (some ⟨none, Entries.insert (.text key) value entries⟩) := by
  rw [assignWithin]
  simp only [textKeys_eq texts, found, if_pos ends]

theorem assignWithin_of_dict (goesOn : count ≠ wanted.length)
    (isThere : Entries.get? entries key = some (.dict inner)) :
    assignWithin cells value (levels + 1) wanted entries =
      (assignWithin cells value levels (wanted.drop count) inner).map
        (Option.map (Change.outside key entries)) := by
  rw [assignWithin]
  simp only [textKeys_eq texts, found, if_neg goesOn, isThere]

theorem assignWithin_of_link (goesOn : count ≠ wanted.length)
    (isThere : Entries.get? entries key = some (.link cell kind))
    (holds : cells[cell]? = some (.dict inner)) :
    assignWithin cells value (levels + 1) wanted entries =
      (assignWithin cells value levels (wanted.drop count) inner).map
        (Option.map (Change.atCell cell)) := by
  rw [assignWithin]
  simp only [textKeys_eq texts, found, if_neg goesOn, isThere, Data.Cells.resolve, holds,
    Option.getD_some]

theorem assignWithin_of_leaf (goesOn : count ≠ wanted.length)
    (isThere : Entries.get? entries key = some part)
    (unlike : ∀ inner, cells.resolve part ≠ .dict inner) :
    assignWithin cells value (levels + 1) wanted entries = .ok none := by
  rw [assignWithin]
  simp only [textKeys_eq texts, found, if_neg goesOn, isThere]
  cases part with
  | dict inner => exact absurd rfl (unlike inner)
  | link cell kind =>
      cases head : cells.resolve (.link cell kind) with
      | dict inner => exact absurd head (unlike inner)
      | _ => simp only [head]
  | _ => rfl

end Level

/-! ## The whole walk -/

namespace Change

/-- The cells after a change, if there is one. -/
def cellsAfter (cells : Cells) : Option Change → Cells
  | some ⟨some cell, entries⟩ => cells.setIfInBounds cell (.dict entries)
  | _ => cells

/-- The entries that a walk began at after its change, if there is one. -/
def entriesAfter (entries : Entries) : Option Change → Entries
  | some ⟨none, changed⟩ => changed
  | _ => entries

end Change

/-- A change of entries inside some cells does what `replaced` does to what is seen of them. -/
structure Tracks (cells : Cells) (around : List Nat) (entries : Entries) (new : Scalar)
    (levels : Nat) (wanted : List String) (cells' : Cells) (entries' : Entries) : Prop where
  cellsNarrowed : cells.Narrowed cells'
  entriesNarrowed : (Value.dict entries).Narrowed (.dict entries')
  changed : cells.ChangedUnder cells' (.dict entries)
  shown : cells'.shown around (.dict entries') =
    replaced new levels wanted (cells.shown around (.dict entries))

/-! ## Steps of a walk -/

section Steps

variable {before after : Entries} {part' : Value} {cells' : Cells} {inner' : Entries}

theorem tracks_refl
    (same : replaced new levels wanted (cells.shown around (.dict entries)) =
      cells.shown around (.dict entries)) :
    Tracks cells around entries new levels wanted cells entries where
  cellsNarrowed := .refl cells
  entriesNarrowed := .refl _
  changed := fun _ differs => absurd rfl differs
  shown := same.symm

variable (nested : cells.IsNested around (.dict (before ++ (.text key, part) :: after)))
  (absent : key ∉ Entries.texts before)
  (found : bestKey? wanted (Entries.texts (before ++ (.text key, part) :: after)) =
    some (key, count))

include nested absent found

/-- What happens to the value under the key that is taken happens to the entries. -/
theorem tracks_of_part (cellsNarrowed : cells.Narrowed cells') (partNarrowed : part.Narrowed part')
    (changed : cells.ChangedUnder cells' part)
    (shown : cells'.shown around part' =
      replacedUnder new levels wanted count (cells.shown around part)) :
    Tracks cells around (before ++ (.text key, part) :: after) new (levels + 1) wanted cells'
      (before ++ (.text key, part') :: after) where
  cellsNarrowed := cellsNarrowed
  entriesNarrowed := .entry partNarrowed
  changed := changed.entry
  shown := by
    obtain ⟨sameBefore, sameAfter⟩ := nested.shown_beside cellsNarrowed.size_eq changed
    have absentSeen : key ∉ Entries.texts (Entries.mapValues (cells.shown around) before) := by
      rw [Entries.texts_mapValues]
      exact absent
    rw [Data.Cells.shown_dict (nested.isAround.congr cellsNarrowed.size_eq),
      Entries.mapValues_split, sameBefore, sameAfter, shown, Data.Cells.shown_dict nested.isAround,
      replaced_of_some (by rw [Entries.texts_mapValues, found]), Entries.mapValues_split,
      Entries.alter_split absentSeen]

theorem tracks_of_end (ends : count = wanted.length) :
    Tracks cells around (before ++ (.text key, part) :: after) new (levels + 1) wanted cells
      (before ++ (.text key, .scalar new) :: after) := by
  refine tracks_of_part nested absent found (.refl cells) (.scalar part new)
    (fun _ differs => absurd rfl differs) ?_
  rw [Data.Cells.shown_scalar, replacedUnder, if_pos ends]

theorem tracks_of_leaf (goesOn : count ≠ wanted.length)
    (unlike : ∀ inner, cells.resolve part ≠ .dict inner) :
    Tracks cells around (before ++ (.text key, part) :: after) new (levels + 1) wanted cells
      (before ++ (.text key, part) :: after) := by
  refine tracks_of_part nested absent found (.refl cells) (.refl part)
    (fun _ differs => absurd rfl differs) ?_
  have noDict := Data.Cells.shown_ne_dict nested.isAround nested.collections unlike
  rw [replacedUnder, if_neg goesOn, replaced_of_ne_dict noDict]

end Steps

section Deeper

variable {before after : Entries} {cells' cells'' : Cells} {inner' : Entries}

theorem tracks_of_dict
    (nested : cells.IsNested around (.dict (before ++ (.text key, .dict inner) :: after)))
    (absent : key ∉ Entries.texts before)
    (found : bestKey? wanted (Entries.texts (before ++ (.text key, .dict inner) :: after)) =
      some (key, count))
    (goesOn : count ≠ wanted.length)
    (within : Tracks cells around inner new levels (wanted.drop count) cells' inner') :
    Tracks cells around (before ++ (.text key, .dict inner) :: after) new (levels + 1) wanted cells'
      (before ++ (.text key, .dict inner') :: after) := by
  refine tracks_of_part nested absent found within.cellsNarrowed within.entriesNarrowed
    within.changed ?_
  rw [replacedUnder, if_neg goesOn, within.shown]

/-- A walk that goes on behind a link changes the dictionary there, or what is further on. -/
theorem tracks_of_link
    (nested : cells.IsNested around (.dict (before ++ (.text key, .link cell kind) :: after)))
    (absent : key ∉ Entries.texts before)
    (found : bestKey? wanted (Entries.texts (before ++ (.text key, .link cell kind) :: after)) =
      some (key, count))
    (goesOn : count ≠ wanted.length) (holds : cells[cell]? = some (.dict inner))
    (within : Tracks cells (cell :: around) inner new levels (wanted.drop count) cells' inner')
    (size_eq : cells''.size = cells'.size) (here : cells''[cell]? = some (.dict inner'))
    (elsewhere : ∀ other, other ≠ cell → cells''[other]? = cells'[other]?) :
    Tracks cells around (before ++ (.text key, .link cell kind) :: after) new (levels + 1) wanted
      cells'' (before ++ (.text key, .link cell kind) :: after) := by
  obtain ⟨outside, nestedInner⟩ :=
    (nested.entry Data.Cells.inside_split).linked holds
  have narrowed : cells.Narrowed cells'' := by
    refine ⟨size_eq.trans within.cellsNarrowed.size_eq, ?_⟩
    intro other narrow holdsOther
    by_cases same : other = cell
    · subst same
      rw [here] at holdsOther
      obtain rfl := Option.some.inj holdsOther
      exact ⟨.dict inner, holds, within.entriesNarrowed⟩
    · rw [elsewhere other same] at holdsOther
      exact within.cellsNarrowed.content holdsOther
  refine tracks_of_part nested absent found narrowed (.refl _) ?_ ?_
  · intro other differs
    by_cases same : other = cell
    · subst same
      exact ⟨[], kind, inner, .nil, rfl, holds⟩
    · rw [elsewhere other same] at differs
      obtain ⟨place, kind', inner', keyed, isThere, holdsOther⟩ := within.changed other differs
      cases place with
      | nil => cases isThere
      | cons step rest =>
          exact ⟨step :: rest, kind', inner', keyed,
            by rw [Data.Cells.at?_link nested.collections holds, isThere], holdsOther⟩
  · -- The walk's own cells differ from these in the cell of the link at most, which is not
    -- reached from inside.
    have nestedAfter := nestedInner.narrowed within.cellsNarrowed within.entriesNarrowed
    have same_shown : cells'.shown (cell :: around) (.dict inner') =
        cells''.shown (cell :: around) (.dict inner') := by
      refine Data.Cells.shown_congr nestedAfter.collections size_eq nestedAfter.isAround
        nestedAfter.isAround ?_
      intro other reaches
      refine ⟨elsewhere other ?_, Iff.rfl⟩
      rintro rfl
      exact nestedAfter.apart reaches List.mem_cons_self
    rw [Data.Cells.shown_link (nested.isAround.congr narrowed.size_eq) outside here, ← same_shown,
      within.shown, Data.Cells.shown_link nested.isAround outside holds, replacedUnder,
      if_neg goesOn]

end Deeper

/-- A change of a dictionary in an entry is a change of the entries around it. -/
theorem outside_after (cells : Cells) (inner : Entries) {before : Entries} (after : Entries)
    (absent : key ∉ Entries.texts before) (change : Option Change) :
    Change.cellsAfter cells
        (change.map (Change.outside key (before ++ (.text key, .dict inner) :: after))) =
      Change.cellsAfter cells change ∧
    Change.entriesAfter (before ++ (.text key, .dict inner) :: after)
        (change.map (Change.outside key (before ++ (.text key, .dict inner) :: after))) =
      before ++ (.text key, .dict (Change.entriesAfter inner change)) :: after := by
  cases change with
  | none => exact ⟨rfl, rfl⟩
  | some change =>
      obtain ⟨cell, changed⟩ := change
      cases cell with
      | some cell => exact ⟨rfl, rfl⟩
      | none => exact ⟨rfl, Entries.insert_split absent _⟩

/-- A change of the dictionary in a cell stands in that cell, where no other change does. -/
theorem atCell_after (holds : cells[cell]? = some (.dict inner)) (change : Option Change)
    (kept : (Change.cellsAfter cells change)[cell]? = cells[cell]?) :
    (Change.cellsAfter cells (change.map (Change.atCell cell))).size =
        (Change.cellsAfter cells change).size ∧
      (Change.cellsAfter cells (change.map (Change.atCell cell)))[cell]? =
        some (.dict (Change.entriesAfter inner change)) ∧
      ∀ other, other ≠ cell →
        (Change.cellsAfter cells (change.map (Change.atCell cell)))[other]? =
          (Change.cellsAfter cells change)[other]? := by
  cases change with
  | none => exact ⟨rfl, holds, fun _ _ => rfl⟩
  | some change =>
      obtain ⟨changedCell, changed⟩ := change
      cases changedCell with
      | some changedCell => exact ⟨rfl, kept.trans holds, fun _ _ => rfl⟩
      | none =>
          have bound := (Array.getElem?_eq_some_iff.mp holds).1
          refine ⟨Array.size_setIfInBounds, ?_, ?_⟩
          · exact Array.getElem?_setIfInBounds_self_of_lt bound
          · exact fun other different => Array.getElem?_setIfInBounds_ne (Ne.symm different)

theorem entriesAfter_atCell (change : Option Change) :
    Change.entriesAfter entries (change.map (Change.atCell cell)) = entries := by
  rcases change with - | ⟨changedCell, changed⟩
  · rfl
  · cases changedCell <;> rfl

/-- **A walk does to settings what `replaced` does to the tree that is seen of them.** -/
theorem assignWithin_tracks (nested : cells.IsNested around (.dict entries)) (new : Scalar)
    (levels : Nat) (wanted : List String) :
    ∃ change, assignWithin cells (.scalar new) levels wanted entries = .ok change ∧
      Tracks cells around entries new levels wanted (Change.cellsAfter cells change)
        (Change.entriesAfter entries change) := by
  induction levels generalizing around wanted entries with
  | zero => exact ⟨none, rfl, tracks_refl rfl⟩
  | succ levels inductionHypothesis =>
      have texts := nested.textKeys rfl
      cases found : bestKey? wanted (Entries.texts entries) with
      | none =>
          refine ⟨none, assignWithin_of_none texts _ found, tracks_refl ?_⟩
          rw [Data.Cells.shown_dict nested.isAround,
            replaced_of_none (by rw [Entries.texts_mapValues, found])]
      | some chosen =>
          obtain ⟨key, count⟩ := chosen
          obtain ⟨part, isThere⟩ := Entries.mem_texts_iff.mp (bestKey?_eq_some found).1.1
          obtain ⟨before, after, rfl, absent⟩ := Entries.exists_split_of_get? isThere
          by_cases ends : count = wanted.length
          · refine ⟨_, assignWithin_of_end texts _ found ends, ?_⟩
            rw [Entries.insert_split absent]
            exact tracks_of_end nested absent found ends
          · by_cases isDict : ∃ inner, cells.resolve part = .dict inner
            · obtain ⟨inner, isDict⟩ := isDict
              cases part with
              | dict own =>
                  obtain rfl : own = inner := Value.dict.inj isDict
                  obtain ⟨change, walks, within⟩ :=
                    inductionHypothesis (nested.entry Data.Cells.inside_split) (wanted.drop count)
                  refine ⟨_, by rw [assignWithin_of_dict texts _ found ends isThere, walks]; rfl, ?_⟩
                  obtain ⟨cells_eq, entries_eq⟩ := outside_after cells own after absent change
                  rw [cells_eq, entries_eq]
                  exact tracks_of_dict nested absent found ends within
              | link cell kind =>
                  have holds := Data.Cells.getElem?_of_resolve_dict isDict
                  obtain ⟨-, nestedInner⟩ := (nested.entry Data.Cells.inside_split).linked holds
                  obtain ⟨change, walks, within⟩ :=
                    inductionHypothesis nestedInner (wanted.drop count)
                  refine ⟨_, by
                    rw [assignWithin_of_link texts _ found ends isThere holds, walks]
                    rfl, ?_⟩
                  have kept : (Change.cellsAfter cells change)[cell]? = cells[cell]? := by
                    by_contra differs
                    obtain ⟨place, kind', other, -, isThere, -⟩ := within.changed cell differs
                    exact nestedInner.apart ⟨place, kind', isThere⟩ List.mem_cons_self
                  obtain ⟨size_eq, here, elsewhere⟩ := atCell_after holds change kept
                  rw [entriesAfter_atCell]
                  exact tracks_of_link nested absent found ends holds within size_eq here elsewhere
              | _ => cases isDict
            · have unlike : ∀ inner, cells.resolve part ≠ .dict inner := not_exists.mp isDict
              exact ⟨none, assignWithin_of_leaf texts _ found ends isThere unlike,
                tracks_of_leaf nested absent found ends unlike⟩

/-! ## Settings as a whole -/

theorem assigned_value {settings : Shared} (nested : settings.IsNested) (wanted : List String)
    (new : Scalar) :
    ∃ after, assigned settings wanted (.scalar new) = .ok after ∧ after.IsNested ∧
      after.value = replaced new wanted.length wanted settings.value := by
  obtain ⟨root, cells⟩ := settings
  obtain ⟨entries, rfl⟩ := nested.isDict
  obtain ⟨change, walks, tracks⟩ := assignWithin_tracks nested.inCells new wanted.length wanted
  have nestedAfter := nested.inCells.narrowed tracks.cellsNarrowed tracks.entriesNarrowed
  refine ⟨⟨.dict (Change.entriesAfter entries change), Change.cellsAfter cells change⟩, ?_,
    ⟨⟨_, rfl⟩, nestedAfter.collections, nestedAfter.textKeyed, nestedAfter.unshared⟩,
    tracks.shown⟩
  unfold assigned
  simp only [walks]
  rcases change with - | ⟨changedCell, changed⟩
  · rfl
  · cases changedCell <;> rfl

/-- A text stands for a truth value, a whole number or itself. -/
theorem coerce_cases {text : String} {value : Value} (coerced : coerce text = .ok value) :
    (∃ truth, value = .bool truth) ∨ (∃ number, value = .int number) ∨ value = .text text := by
  unfold coerce at coerced
  split at coerced
  · exact .inl ⟨true, (Except.ok.inj coerced).symm⟩
  · split at coerced
    · exact .inl ⟨false, (Except.ok.inj coerced).symm⟩
    · split at coerced
      · split at coerced
        · exact .inr (.inl ⟨_, (Except.ok.inj coerced).symm⟩)
        · cases coerced
        · cases coerced
      · exact .inr (.inr (Except.ok.inj coerced).symm)

theorem exists_scalar_of_coerce {text : String} {value : Value} (coerced : coerce text = .ok value) :
    ∃ new, value = .scalar new := by
  rcases coerce_cases coerced with ⟨truth, rfl⟩ | ⟨number, rfl⟩ | rfl
  · exact ⟨.bool truth, rfl⟩
  · exact ⟨.int number, rfl⟩
  · exact ⟨.text text, rfl⟩

/-- What variables do: the parts of each, and the scalar that its text stands for. -/
def overridesOf (named : List (List String × String)) : List (List String × Scalar) :=
  named.filterMap fun (wanted, text) =>
    match coerce text with
    | .ok (.scalar new) => some (wanted, new)
    | _ => none

theorem overrideAll_value {settings : Shared} (nested : settings.IsNested)
    {named : List (List String × String)}
    (coercible : ∀ assignment ∈ named, ∃ value, coerce assignment.2 = .ok value) :
    ∃ after, overrideAll settings named = .ok after ∧ after.IsNested ∧
      after.value = replacedAll settings.value (overridesOf named) := by
  induction named generalizing settings with
  | nil => exact ⟨settings, rfl, nested, rfl⟩
  | cons assignment rest inductionHypothesis =>
      obtain ⟨wanted, text⟩ := assignment
      obtain ⟨value, coerced⟩ := coercible (wanted, text) List.mem_cons_self
      obtain ⟨new, rfl⟩ := exists_scalar_of_coerce coerced
      obtain ⟨next, assigns, nestedNext, next_value⟩ := assigned_value nested wanted new
      obtain ⟨after, overrides, nestedAfter, after_value⟩ := inductionHypothesis nestedNext
        fun other member => coercible other (List.mem_cons_of_mem _ member)
      refine ⟨after, ?_, nestedAfter, ?_⟩
      · rw [overrideAll, overrideOne, coerced]
        simp only [assigns, overrides]
      · rw [after_value, next_value]
        simp only [overridesOf, List.filterMap_cons, coerced]
        rfl

theorem map_fst_overridesOf {named : List (List String × String)}
    (coercible : ∀ assignment ∈ named, ∃ value, coerce assignment.2 = .ok value) :
    (overridesOf named).map Prod.fst = named.map Prod.fst := by
  induction named with
  | nil => rfl
  | cons assignment rest inductionHypothesis =>
      obtain ⟨wanted, text⟩ := assignment
      obtain ⟨value, coerced⟩ := coercible (wanted, text) List.mem_cons_self
      obtain ⟨new, rfl⟩ := exists_scalar_of_coerce coerced
      have others := inductionHypothesis fun other member =>
        coercible other (List.mem_cons_of_mem _ member)
      unfold overridesOf at others ⊢
      simp only [List.filterMap_cons, coerced, List.map_cons, others]

end Settings
end Provenance
