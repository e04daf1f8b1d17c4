import Provenance.Proofs.Settings.Precedence
import Provenance.Proofs.Settings.TextKeys

/-!
Contract: what variables leave alone, in all settings with text keys.

Owns:
- `KeepsShape`: dictionaries that are still there have their keys in their order;
- `Shared.SameEntry`, paths that lead to one entry through dictionaries at several places;
- `Framed`: every entry is still there, or one that leads to it is named and is a scalar now;
- `IsAssigned.framed`, one variable, and `override_changesOnlyNamed`, all of them;
- `not_override_leaves_unnamed`, a dictionary at two places.

Does **not** own: which of several variables an entry has its scalar from.

## Two paths to one entry

A dictionary in a cell has its entries at all places with a link to the cell.  A variable that names
an entry at one of them changes it at the others, whose paths it does not name.  Nothing else is
changed: where no dictionary is shared, an entry that no variable names, nor anything around it, is
what it was.
-/

set_option autoImplicit false

namespace Provenance

open Data (Scalar Value Entries Shared Cells Place Kind)

/-! ## What narrowing keeps -/

namespace Data

/-- If a value is a dictionary now, it was one with the same keys. -/
def HasKeysOf (old now : Value) : Prop :=
  ∀ entries, now = .dict entries → ∃ others, old = .dict others ∧
    Entries.keys others = Entries.keys entries

theorem HasKeysOf.refl (value : Value) : HasKeysOf value value :=
  fun entries isDict => ⟨entries, isDict, rfl⟩

theorem HasKeysOf.trans {first second third : Value} (before : HasKeysOf first second)
    (after : HasKeysOf second third) : HasKeysOf first third := by
  intro entries isDict
  obtain ⟨others, isDictBetween, keys_eq⟩ := after entries isDict
  obtain ⟨firsts, isDictFirst, keys_eq'⟩ := before others isDictBetween
  exact ⟨firsts, isDictFirst, keys_eq'.trans keys_eq⟩

theorem Value.Narrowed.hasKeysOf {value value' : Value} (narrowed : value.Narrowed value') :
    HasKeysOf value value' := by
  rintro entries rfl
  exact narrowed.of_dict

/-- What is at a path of narrowed values was wider there before. -/
theorem Cells.Narrowed.entryAt? {cells cells' : Cells} {value value' : Value} {path : List String}
    {found : Shared} (narrowed : cells.Narrowed cells') (values : value.Narrowed value')
    (isThere : Shared.entryAt? path ⟨value', cells'⟩ = some found) :
    ∃ wide, Shared.entryAt? path ⟨value, cells⟩ = some ⟨wide, cells⟩ ∧ wide.Narrowed found.root := by
  induction path generalizing value value' with
  | nil =>
      obtain rfl := Option.some.inj isThere
      exact ⟨value, rfl, values⟩
  | cons key rest inductionHypothesis =>
      obtain ⟨part, isEntry, behind⟩ := Option.bind_eq_some_iff.mp isThere
      have heads := narrowed.resolve values
      obtain ⟨widePart, isEntryWide, parts⟩ := heads.entry? isEntry
      obtain ⟨wide, isThereWide, wider⟩ := inductionHypothesis parts behind
      exact ⟨wide, Option.bind_eq_some_iff.mpr ⟨widePart, isEntryWide, isThereWide⟩, wider⟩

/-- Two paths of keys to one entry: they are the same, or they meet in a cell and go on from there
together. -/
def Shared.SameEntry (shared : Shared) (path other : List String) : Prop :=
  path = other ∨ ∃ first second rest cell kind otherKind, rest ≠ [] ∧ path = first ++ rest ∧
    other = second ++ rest ∧ shared.entryAt? first = some (shared.part (.link cell kind)) ∧
      shared.entryAt? second = some (shared.part (.link cell otherKind))

theorem Shared.SameEntry.ne_nil {shared : Shared} {path other : List String}
    (same : shared.SameEntry path other) (given : path ≠ []) : other ≠ [] := by
  rcases same with rfl | ⟨_, second, rest, _, _, _, restGiven, -, rfl, -, -⟩
  · exact given
  · exact List.append_ne_nil_of_right_ne_nil second restGiven

end Data

namespace Settings

open World (Environment)

variable {settings next after : Shared} {environment : Environment} {new : Scalar}
  {path start : List String} {key : String} {cells cells' : Cells} {value value' part : Value}
  {entries : Entries}

/-! ## Shape -/

/-- No path and no place is new, dictionaries have their keys in their order, and links are where
they were. -/
structure KeepsShape (settings after : Shared) : Prop where
  paths : ∀ path now, after.entryAt? path = some now →
    ∃ old, settings.entryAt? path = some old ∧ Data.HasKeysOf old.head now.head
  places : ∀ place now, after.cells.at? place after.root = some now →
    ∃ old, settings.cells.at? place settings.root = some old ∧
      Data.HasKeysOf (settings.cells.resolve old) (after.cells.resolve now)
  links : ∀ path cell kind, after.entryAt? path = some (after.part (.link cell kind)) →
    settings.entryAt? path = some (settings.part (.link cell kind))

theorem KeepsShape.refl (settings : Shared) : KeepsShape settings settings where
  paths := fun _ now isThere => ⟨now, isThere, .refl _⟩
  places := fun _ now isThere => ⟨now, isThere, .refl _⟩
  links := fun _ _ _ isThere => isThere

theorem KeepsShape.trans (first : KeepsShape settings next) (second : KeepsShape next after) :
    KeepsShape settings after where
  paths := by
    intro path now isThere
    obtain ⟨between, isThereBetween, sameKeys⟩ := second.paths path now isThere
    obtain ⟨old, isThereOld, sameKeysOld⟩ := first.paths path between isThereBetween
    exact ⟨old, isThereOld, sameKeysOld.trans sameKeys⟩
  places := by
    intro place now isThere
    obtain ⟨between, isThereBetween, sameKeys⟩ := second.places place now isThere
    obtain ⟨old, isThereOld, sameKeysOld⟩ := first.places place between isThereBetween
    exact ⟨old, isThereOld, sameKeysOld.trans sameKeys⟩
  links := fun path cell kind isThere => first.links path cell kind (second.links path cell kind isThere)

theorem keepsShape_of_narrowed (cellsNarrowed : settings.cells.Narrowed after.cells)
    (rootNarrowed : settings.root.Narrowed after.root) : KeepsShape settings after where
  paths := by
    intro path now isThere
    obtain ⟨wide, isThereWide, wider⟩ := cellsNarrowed.entryAt? rootNarrowed isThere
    refine ⟨_, isThereWide, ?_⟩
    rw [Shared.head, Shared.head, Shared.cells_of_entryAt? isThere]
    exact (cellsNarrowed.resolve wider).hasKeysOf
  places := by
    intro place now isThere
    obtain ⟨wide, isThereWide, wider⟩ := cellsNarrowed.at? rootNarrowed isThere
    exact ⟨wide, isThereWide, (cellsNarrowed.resolve wider).hasKeysOf⟩
  links := by
    intro path cell kind isThere
    obtain ⟨wide, isThereWide, wider⟩ := cellsNarrowed.entryAt? rootNarrowed isThere
    rw [isThereWide, wider.of_link]
    rfl

theorem KeepsShape.sameEntry {other : List String} (shape : KeepsShape settings after)
    (same : after.SameEntry path other) : settings.SameEntry path other := by
  rcases same with same | ⟨first, second, rest, cell, kind, otherKind, given, isPath, isOther,
    leads, leadsToo⟩
  · exact .inl same
  · exact .inr ⟨first, second, rest, cell, kind, otherKind, given, isPath, isOther,
      shape.links first cell kind leads, shape.links second cell otherKind leadsToo⟩

/-! ## Frame -/

/-- Every entry is still there, and if it is no dictionary is what it was, or it is at or behind
another path to an entry with a name, and a scalar is there that the name stands for. -/
structure Framed (names : List String → Scalar → Prop) (settings after : Shared) : Prop where
  shape : KeepsShape settings after
  entries : ∀ path old, settings.entryAt? path = some old →
    (∃ now, after.entryAt? path = some now ∧
      ((∀ entries, old.head ≠ .dict entries) → now.root = old.root ∧ now.head = old.head)) ∨
    ∃ start other new, start <+: path ∧ start ≠ [] ∧ settings.SameEntry start other ∧
      names other new ∧ after.entryAt? start = some (after.part (.scalar new))

namespace Framed

variable {names names' : List String → Scalar → Prop}

theorem refl (names : List String → Scalar → Prop) (settings : Shared) :
    Framed names settings settings where
  shape := .refl settings
  entries := fun _ old isThere => .inl ⟨old, isThere, fun _ => ⟨rfl, rfl⟩⟩

theorem mono (framed : Framed names settings after)
    (renamed : ∀ path new, path ≠ [] → names path new → names' path new) :
    Framed names' settings after where
  shape := framed.shape
  entries := by
    intro path old isThere
    rcases framed.entries path old isThere with
      kept | ⟨start, other, new, isStart, given, same, named, isScalar⟩
    · exact .inl kept
    · exact .inr ⟨start, other, new, isStart, given, same, renamed other new (same.ne_nil given) named,
        isScalar⟩

theorem trans (first : Framed names settings next) (second : Framed names next after) :
    Framed names settings after where
  shape := first.shape.trans second.shape
  entries := by
    intro path old isThere
    rcases first.entries path old isThere with
      ⟨between, isThereBetween, kept⟩ | ⟨start, other, new, isStart, given, same, named, isScalar⟩
    · rcases second.entries path between isThereBetween with
        ⟨now, isThereNow, keptNow⟩ | ⟨start, other, new, isStart, given, same, named, isScalar⟩
      · refine .inl ⟨now, isThereNow, fun unlike => ?_⟩
        obtain ⟨root_eq, head_eq⟩ := kept unlike
        obtain ⟨root_eq', head_eq'⟩ := keptNow (by rw [head_eq]; exact unlike)
        exact ⟨root_eq'.trans root_eq, head_eq'.trans head_eq⟩
      · exact .inr ⟨start, other, new, isStart, given, first.shape.sameEntry same, named, isScalar⟩
    · -- The scalar stays there, or gives way to another one at it or around it.
      rcases second.entries start _ isScalar with
        ⟨now, isThereNow, kept⟩ | ⟨around, other, new, isAround, given, same, named, isScalar⟩
      · have root_eq : now.root = .scalar new := (kept fun _ isDict => nomatch isDict).1
        refine .inr ⟨start, other, new, isStart, given, same, named, ?_⟩
        rw [isThereNow, Shared.part, ← Shared.cells_of_entryAt? isThereNow, ← root_eq]
      · exact .inr ⟨around, other, new, isAround.trans isStart, given, first.shape.sameEntry same,
          named, isScalar⟩

end Framed

/-! ## One variable -/

theorem Put.ne_nil (put : Put new path value (.dict entries)) : path ≠ [] := by
  rintro rfl
  cases put

/-- A value as it was, or with a scalar put at one of some paths. -/
def IsOrPut (new : Scalar) (ways : List String → Prop) (value value' : Value) : Prop :=
  value' = value ∨ ∃ way, ways way ∧ way ≠ [] ∧ Put new way value value'

/-- Cells are what they were, or hold a dictionary with a scalar put at a path; the paths from a value
to these scalars are among some ways. -/
structure Reflects (new : Scalar) (cells cells' : Cells) (ways : List String → Prop) (value : Value) :
    Prop where
  size_eq : cells'.size = cells.size
  content : ∀ cell content, cells[cell]? = some content → cells'[cell]? = some content ∨
    ∃ rest inner changed, content = .dict inner ∧ cells'[cell]? = some (.dict changed) ∧
      Put new rest (.dict inner) (.dict changed) ∧
        ∀ first kind, Shared.entryAt? first ⟨value, cells⟩ = some ⟨.link cell kind, cells⟩ →
          ways (first ++ rest)

section Reading

variable {ways : List String → Prop} (reflects : Reflects new cells cells' ways value)

include reflects

theorem Reflects.behind (isDict : cells.resolve value = .dict entries)
    (isEntry : Entries.get? entries key = some part) :
    Reflects new cells cells' (fun way => ways (key :: way)) part where
  size_eq := reflects.size_eq
  content := by
    intro cell content holds
    rcases reflects.content cell content holds with
      same | ⟨rest, inner, changed, isInner, holdsNow, put, areWays⟩
    · exact .inl same
    · refine .inr ⟨rest, inner, changed, isInner, holdsNow, put, fun first kind leads => ?_⟩
      exact areWays (key :: first) kind (Shared.entryAt?_cons.mpr ⟨entries, part, isDict, isEntry, leads⟩)

/-- What is no dictionary stays what it is. -/
theorem Reflects.resolve_of_ne_dict (isOrPut : IsOrPut new ways value value')
    (unlike : ∀ entries, cells.resolve value ≠ .dict entries) :
    value' = value ∧ cells'.resolve value' = cells.resolve value := by
  rcases isOrPut with rfl | ⟨way, -, given, put⟩
  · refine ⟨rfl, ?_⟩
    cases value' with
    | link cell kind =>
        cases holds : cells[cell]? with
        | none =>
            have outside : cells'[cell]? = none := by
              rw [Array.getElem?_eq_none_iff, reflects.size_eq]
              exact Array.getElem?_eq_none_iff.mp holds
            rw [Data.Cells.resolve_link_of_none holds, Data.Cells.resolve_link_of_none outside]
        | some content =>
            rcases reflects.content cell content holds with same | ⟨_, inner, _, rfl, -⟩
            · rw [Data.Cells.resolve_link_of_some holds, Data.Cells.resolve_link_of_some same]
            · exact absurd (Data.Cells.resolve_link_of_some holds) (unlike inner)
    | _ => rfl
  · cases put with
    | here => exact absurd rfl given
    | @entry entries => exact absurd rfl (unlike entries)

/-- A dictionary stays one, and is what it was or has a scalar put at a way. -/
theorem Reflects.resolve_of_dict (isOrPut : IsOrPut new ways value value')
    (isDict : cells.resolve value = .dict entries) :
    ∃ entries', cells'.resolve value' = .dict entries' ∧
      IsOrPut new ways (.dict entries) (.dict entries') := by
  rcases isOrPut with rfl | ⟨way, isWay, given, put⟩
  · cases value' with
    | dict own =>
        obtain rfl : own = entries := Value.dict.inj isDict
        exact ⟨own, rfl, .inl rfl⟩
    | link cell kind =>
        have holds := Data.Cells.getElem?_of_resolve_dict isDict
        rcases reflects.content cell _ holds with
          same | ⟨rest, inner, changed, isInner, holdsNow, put, areWays⟩
        · exact ⟨entries, Data.Cells.resolve_link_of_some same, .inl rfl⟩
        · obtain rfl : entries = inner := Value.dict.inj isInner
          exact ⟨changed, Data.Cells.resolve_link_of_some holdsNow,
            .inr ⟨rest, areWays [] kind rfl, put.ne_nil, put⟩⟩
    | _ => cases isDict
  · cases put with
    | here => exact absurd rfl given
    | entry isThere inner =>
        obtain rfl := Value.dict.inj isDict
        exact ⟨_, rfl, .inr ⟨_, isWay, given, .entry isThere inner⟩⟩

end Reading

/-- Under a key there is what was there, with a scalar put at what is left of a way, or a scalar where
the way ends. -/
theorem IsOrPut.entry {ways : List String → Prop} {entries' : Entries}
    (isOrPut : IsOrPut new ways (.dict entries) (.dict entries'))
    (isEntry : Entries.get? entries key = some part) :
    ∃ part', Entries.get? entries' key = some part' ∧
      (IsOrPut new (fun way => ways (key :: way)) part part' ∨ ways [key] ∧ part' = .scalar new) := by
  rcases isOrPut with same | ⟨way, isWay, -, put⟩
  · obtain rfl := Value.dict.inj same
    exact ⟨part, isEntry, .inl (.inl rfl)⟩
  · cases put with
    | @entry _ found rest old now isThere inner =>
        by_cases sameKey : key = found
        · subst sameKey
          obtain rfl := Option.some.inj (isEntry.symm.trans isThere)
          refine ⟨now, by rw [Entries.get?_alter_self, isThere, Option.map_some], ?_⟩
          cases rest with
          | nil =>
              cases inner
              exact .inr ⟨isWay, rfl⟩
          | cons first others => exact .inl (.inr ⟨_, isWay, List.cons_ne_nil _ _, inner⟩)
        · exact ⟨part, by rw [Entries.get?_alter_of_ne sameKey, isEntry], .inl (.inl rfl)⟩

/-- What is at a path is still there, unless a way leads to it or to something around it. -/
theorem Reflects.entryAt? {ways : List String → Prop} {old : Shared}
    (reflects : Reflects new cells cells' ways value) (isOrPut : IsOrPut new ways value value')
    (isThere : Shared.entryAt? path ⟨value, cells⟩ = some old) :
    (∃ now, Shared.entryAt? path ⟨value', cells'⟩ = some now ∧
      ((∀ entries, old.head ≠ .dict entries) → now.root = old.root ∧ now.head = old.head)) ∨
    ∃ start, start <+: path ∧ start ≠ [] ∧ ways start ∧
      Shared.entryAt? start ⟨value', cells'⟩ = some ⟨.scalar new, cells'⟩ := by
  induction path generalizing value value' ways with
  | nil =>
      obtain rfl := Option.some.inj isThere
      exact .inl ⟨_, rfl, fun unlike => reflects.resolve_of_ne_dict isOrPut unlike⟩
  | cons key rest inductionHypothesis =>
      obtain ⟨entries, part, isDict, isEntry, behind⟩ := Shared.entryAt?_cons.mp isThere
      obtain ⟨entries', isDictNow, dicts⟩ := reflects.resolve_of_dict isOrPut isDict
      obtain ⟨part', isEntryNow, partOrPut | ⟨isWay, rfl⟩⟩ := dicts.entry isEntry
      · have leads : ∀ {path found}, Shared.entryAt? path ⟨part', cells'⟩ = some found →
            Shared.entryAt? (key :: path) ⟨value', cells'⟩ = some found :=
          fun there => Shared.entryAt?_cons.mpr ⟨entries', part', isDictNow, isEntryNow, there⟩
        rcases inductionHypothesis (reflects.behind isDict isEntry) partOrPut behind with
          ⟨now, isThereNow, kept⟩ | ⟨start, isStart, -, isWay, isScalar⟩
        · exact .inl ⟨now, leads isThereNow, kept⟩
        · exact .inr ⟨key :: start, List.cons_prefix_cons.mpr ⟨rfl, isStart⟩, List.cons_ne_nil _ _,
            isWay, leads isScalar⟩
      · exact .inr ⟨[key], List.prefix_append [key] rest, List.cons_ne_nil _ _, isWay,
          Shared.entryAt?_cons.mpr ⟨entries', _, isDictNow, isEntryNow, rfl⟩⟩

/-- **One variable changes no entry but the one that it names**, by whichever path that is read. -/
theorem IsAssigned.framed {wanted : List String} (isAssigned : IsAssigned new wanted settings after) :
    Framed (fun path scalar => (path.flatMap parts, scalar) = (wanted, new)) settings after := by
  obtain ⟨cellsNarrowed, rootNarrowed⟩ := isAssigned.narrowed
  refine ⟨keepsShape_of_narrowed cellsNarrowed rootNarrowed, ?_⟩
  rcases isAssigned with rfl | ⟨entries, path, change, isDict, given, rfl, puts, rfl⟩
  · exact (Framed.refl _ _).entries
  obtain ⟨root, cells⟩ := settings
  obtain rfl : root = .dict entries := isDict
  -- The ways to the scalar are the paths that lead to the same entry.
  have ends : ∃ root' cells', change.apply ⟨.dict entries, cells⟩ = ⟨root', cells'⟩ ∧
      Reflects new cells cells' (Shared.SameEntry ⟨.dict entries, cells⟩ · path) (.dict entries) ∧
        IsOrPut new (Shared.SameEntry ⟨.dict entries, cells⟩ · path) (.dict entries) root' := by
    cases puts with
    | here put =>
        exact ⟨_, cells, rfl, ⟨rfl, fun _ _ holds => .inl holds⟩, .inr ⟨path, .inl rfl, given, put⟩⟩
    | @behind start rest cell kind inner changed isSplit leads holds put =>
        refine ⟨_, _, rfl, ⟨Array.size_setIfInBounds, ?_⟩, .inl rfl⟩
        intro other content holdsOther
        by_cases same : cell = other
        · subst same
          have bound := (Array.getElem?_eq_some_iff.mp holds).1
          refine .inr ⟨rest, inner, changed, Option.some.inj (holdsOther.symm.trans holds),
            Array.getElem?_setIfInBounds_self_of_lt bound, put, fun first kind' leadsToo => ?_⟩
          exact .inr ⟨first, start, rest, cell, kind', kind, put.ne_nil, rfl, isSplit, leadsToo, leads⟩
        · exact .inl (by rw [Array.getElem?_setIfInBounds_ne same, holdsOther])
  obtain ⟨root', cells', applied, reflects, isOrPut⟩ := ends
  rw [applied]
  intro other old isThere
  rcases reflects.entryAt? isOrPut isThere with kept | ⟨start, isStart, startGiven, same, isScalar⟩
  · exact .inl kept
  · exact .inr ⟨start, path, new, isStart, startGiven, same, rfl, isScalar⟩

/-! ## All variables -/

/-- A variable names a path, and its text stands for a scalar: a truth value, a whole number or a
text. -/
def IsNamed (environment : Environment) (path : List String) (new : Scalar) : Prop :=
  ∃ name text, (name, text) ∈ environment ∧ suffix? name = some (joined path) ∧
    coerce text = .ok (.scalar new) ∧ new.kind ∈ [Kind.bool, .int, .text]

/-- What variables do to settings, and what they leave alone. -/
structure ChangesOnlyNamed (environment : Environment) (settings after : Shared) : Prop where
  /-- Dictionaries keep their keys, and an entry is what it was unless a variable names a path to
  it or to something around it. -/
  framed : Framed (IsNamed environment) settings after
  /-- Where no dictionary is shared, each entry has one path, and all that is seen of it stays. -/
  unshared : settings.IsNested → ∀ path old, settings.entryAt? path = some old →
    (∀ entries, old.head ≠ .dict entries) →
      (after.entryAt? path).map Shared.value = some old.value ∨
      ∃ start new, start <+: path ∧ start ≠ [] ∧ IsNamed environment start new ∧
        (after.entryAt? start).map Shared.value = some (.scalar new)

theorem kind_of_coerce {text : String} (coerced : coerce text = .ok (.scalar new)) :
    new.kind ∈ [Kind.bool, .int, .text] := by
  rcases coerce_cases coerced with ⟨truth, same⟩ | ⟨number, same⟩ | same
  all_goals
    obtain rfl := Value.scalar.inj same
    simp [Scalar.kind]

theorem isNamed_of_mem_overrides (coercible : Coercible environment) (given : path ≠ [])
    (member : (path.flatMap parts, new) ∈ overrides environment) : IsNamed environment path new := by
  obtain ⟨name, text, suffix, isVariable, hasSuffix, names, coerced⟩ :=
    exists_of_mem_overrides coercible member
  have isJoined := (eq_joined_iff given).mpr names.symm
  exact ⟨name, text, isVariable, isJoined ▸ hasSuffix, coerced, kind_of_coerce coerced⟩

/-- **Variables change only what they name**: all dictionaries that are still there have their keys in
their order, no key is new, and an entry is what it was unless a variable names a path to it or to
something around it, which then is what the variable's text stands for. -/
theorem override_changesOnlyNamed (environment : Environment) (settings : Shared)
    (isDict : ∃ entries, settings.root = .dict entries)
    (textKeyed : settings.cells.TextKeyed settings.root) (coercible : Coercible environment) :
    ∃ after, override environment settings = .ok after ∧
      ChangesOnlyNamed environment settings after := by
  obtain ⟨after, overridden, -, framed⟩ := exists_overrideAll
    (fun settings named after =>
      Framed (fun path new => (path.flatMap parts, new) ∈ overridesOf named) settings after)
    (fun settings => .refl _ settings)
    (by
      intro settings next after wanted text new rest coerced isAssigned framed
      have both : overridesOf ((wanted, text) :: rest) = (wanted, new) :: overridesOf rest := by
        simp only [overridesOf, List.filterMap_cons, coerced]
      rw [both]
      exact (isAssigned.framed.mono fun _ _ _ same => same ▸ List.mem_cons_self).trans
        (framed.mono fun _ _ _ member => List.mem_cons_of_mem _ member))
    isDict textKeyed (coercible_assignments coercible)
  refine ⟨after, overridden, framed.mono fun path new given member =>
    isNamed_of_mem_overrides coercible given member, ?_⟩
  intro nested path old isThere unlike
  obtain ⟨other, same, nestedAfter, after_value⟩ := override_value nested coercible
  obtain rfl : after = other := Except.ok.inj (overridden.symm.trans same)
  have isThereValue : settings.value.entryAt? path = some old.value := by
    rw [nested.entryAt?_value, isThere, Option.map_some]
  have collections : old.cells.HoldsCollections := by
    rw [Shared.cells_of_entryAt? isThere]
    exact nested.collections
  rw [← nestedAfter.entryAt?_value, after_value]
  rcases @entryAt?_replacedAll _ _ _ (overrides environment) isThereValue with
    ⟨now, isThereNow, kept⟩ | ⟨start, new, isStart, given, member, isScalar⟩
  · rw [isThereNow, kept (Data.Cells.shown_ne_dict .nil collections unlike)]
    exact .inl rfl
  · refine .inr ⟨start, new, isStart, given, isNamed_of_mem_overrides coercible given member, ?_⟩
    rw [← nestedAfter.entryAt?_value, after_value, isScalar]

theorem coercible_singleton {setting : String × String} (coerced : coerce setting.2 = .ok value) :
    Coercible [setting] := by
  intro name text member _
  cases List.mem_singleton.mp member
  exact ⟨value, coerced⟩

/-- A variable for a section of the defaults. -/
theorem override_changesOnlyNamed_section :
    ∃ after, override [("GITMETA_LOGGING", "off")] (.plain defaults) = .ok after ∧
      ChangesOnlyNamed [("GITMETA_LOGGING", "off")] (.plain defaults) after :=
  override_changesOnlyNamed _ _ isNested_defaults.isDict isNested_defaults.textKeyed
    (coercible_singleton rfl)

/-- An entry of a dictionary that stands at two places is changed at the place that no variable
names, too. -/
theorem not_override_leaves_unnamed :
    ¬ ∀ (environment : Environment) (settings : Shared),
      (∃ entries, settings.root = .dict entries) → settings.cells.HoldsCollections →
        settings.cells.TextKeyed settings.root → Coercible environment →
          ∃ after, override environment settings = .ok after ∧
            ∀ path old, settings.entryAt? path = some old →
              (∀ entries, old.head ≠ .dict entries) →
                (after.entryAt? path).map Shared.value = some old.value ∨
                  ∃ start, start <+: path ∧ joined start ∈ suffixes environment := by
  intro law
  have collections : twice.cells.HoldsCollections := by
    intro cell other kind holds
    rcases cell with - | cell <;> cases holds
  have textKeyed : twice.cells.TextKeyed twice.root :=
    Data.Cells.textKeyed_of_isKeyed rfl fun content member => by
      rw [Array.mem_singleton.mp member]
      rfl
  obtain ⟨after, overridden, frame⟩ := law [("GITMETA_A_K", "5")] twice ⟨_, rfl⟩ collections textKeyed
    (coercible_singleton rfl)
  have changed : (override [("GITMETA_A_K", "5")] twice).map (fun after =>
      (after.entryAt? ["b", "k"]).map Shared.value) = .ok (some (.int 5)) := rfl
  rw [overridden] at changed
  rcases frame ["b", "k"] ⟨.int 0, twice.cells⟩ rfl (fun _ isDict => nomatch isDict) with
    kept | ⟨start, isStart, named⟩
  · cases kept.symm.trans (Except.ok.inj changed)
  · have unnamed : ∀ start ∈ List.inits ["b", "k"], joined start ∉ suffixes [("GITMETA_A_K", "5")] := by
      decide
    exact unnamed start ((List.mem_inits start _).mpr isStart) named

end Settings
end Provenance
