import Provenance.Proofs.Settings.Layers

/-!
Contract: settings whose keys are texts, whatever they share.

Owns:
- `exists_merged`: a dictionary is merged over the defaults, and text keys stay text keys;
- `Change.Puts` and `assignWithin_puts`: through text keys every walk comes to an end, and puts a
  scalar at a path of its parts if it changes anything;
- `exists_overrideAll`, an induction over variables that have values;
- `override_returns_iff`: so variables can be set if and only if each has a value.

Does **not** own: what is at the other paths, and settings in which nothing is shared.

## Why shared dictionaries do no harm here

A walk may pass one dictionary more than once, and what it changes may be changed in many places.
But all that it puts in is a scalar in place of something else, so no key and no dictionary is new.
-/

set_option autoImplicit false

namespace Provenance

open Data (Scalar Value Entries Shared Cells Place Kind)

/-! ## Keys inside -/

namespace Data.Cells

variable {cells : Cells} {value : Value} {entries : Entries}

theorem textKeyed_dict_iff :
    cells.TextKeyed (.dict entries) ↔ entries.AreNamed cells.TextKeyed := by
  constructor
  · intro textKeyed entry member
    refine ⟨textKeyed [] _ entries .nil rfl rfl entry.1 (List.mem_map_of_mem member), ?_⟩
    obtain ⟨index, isAt⟩ := List.mem_iff_getElem?.mp member
    have inside : (Value.dict entries).inside (.entry index) = some entry.2 := by
      rw [Value.inside, isAt, Option.map_some]
    intro place found others keyed isThere isDict
    exact textKeyed (.entry index :: place) found others (keyed.entry index)
      (by rw [at?_cons_of_inside inside, isThere]) isDict
  · intro named place found others keyed isThere isDict
    cases place with
    | nil =>
        obtain rfl := Option.some.inj isThere
        obtain rfl : entries = others := Value.dict.inj isDict
        intro key member
        obtain ⟨entry, isEntry, rfl⟩ := List.mem_map.mp member
        exact (named entry isEntry).1
    | cons step rest =>
        obtain ⟨index, rfl⟩ := keyed step List.mem_cons_self
        obtain ⟨part, inside, behind⟩ := Option.bind_eq_some_iff.mp isThere
        obtain ⟨entry, isEntry, rfl⟩ := Option.map_eq_some_iff.mp inside
        exact (named entry (List.mem_of_getElem? isEntry)).2 rest found others
          (fun step later => keyed step (List.mem_cons_of_mem _ later)) behind isDict

/-- Behind a link stands a dictionary with the same keys. -/
theorem TextKeyed.of_resolve (textKeyed : cells.TextKeyed value)
    (isDict : cells.resolve value = .dict entries) : cells.TextKeyed (.dict entries) := by
  intro place found others keyed isThere isOther
  cases place with
  | nil =>
      obtain rfl := Option.some.inj isThere
      exact textKeyed [] value others .nil rfl (isDict.trans isOther)
  | cons step rest =>
      refine textKeyed (step :: rest) found others keyed ?_ isOther
      rw [at?, isDict]
      exact isThere

end Data.Cells

namespace Settings

open World (Environment)

variable {cells : Cells} {upper lower : Value} {entries lowerEntries upperEntries : Entries}
  {settings merged file : Shared} {environment : Environment}

/-! ## Layers -/

theorem areNamed_newEntries {good : Value → Prop} (named : upperEntries.AreNamed good)
    (known : Entries) : (newEntries known upperEntries).AreNamed good :=
  fun entry member => named entry (List.mem_of_mem_filter member)

mutual

/-- One layer over another has text keys if both have. -/
theorem textKeyed_overlay : ∀ {upper lower : Value}, cells.TextKeyed upper →
    cells.TextKeyed lower → cells.TextKeyed (overlay cells.resolve upper lower)
  | upper, .dict lower, textKeyed, lowerKeyed => by
      rw [overlay]
      cases head : cells.resolve upper with
      | dict entries =>
          have named := Data.Cells.textKeyed_dict_iff.mp (textKeyed.of_resolve head)
          have lowerNamed := Data.Cells.textKeyed_dict_iff.mp lowerKeyed
          exact Data.Cells.textKeyed_dict_iff.mpr
            ((areNamed_overlayEntries named lowerNamed).append (areNamed_newEntries named lower))
      | _ => exact textKeyed
  | upper, .scalar _, textKeyed, _ => textKeyed
  | upper, .list _, textKeyed, _ => textKeyed
  | upper, .pairs _, textKeyed, _ => textKeyed
  | upper, .set _, textKeyed, _ => textKeyed
  | upper, .link _ _, textKeyed, _ => textKeyed

theorem areNamed_overlayEntries : ∀ {upper : Entries} {lower : List (Scalar × Value)},
    Entries.AreNamed cells.TextKeyed upper → Entries.AreNamed cells.TextKeyed lower →
      Entries.AreNamed cells.TextKeyed (overlayEntries cells.resolve upper lower)
  | _, [], _, _ => by
      rw [overlayEntries]
      exact .nil
  | upper, (key, value) :: rest, named, lowerNamed => by
      obtain ⟨first, more⟩ := List.forall_mem_cons.mp lowerNamed
      obtain ⟨⟨name, isName⟩, valueKeyed⟩ := first
      obtain rfl : key = .text name := isName
      rw [overlayEntries]
      refine List.forall_mem_cons.mpr ⟨⟨⟨name, rfl⟩, ?_⟩, areNamed_overlayEntries named more⟩
      dsimp only
      split
      · next found isThere => exact textKeyed_overlay (named.of_get? isThere) valueKeyed
      · exact valueKeyed

end

theorem textKeyed_defaults (cells : Cells) : cells.TextKeyed defaults := by
  refine Data.Cells.textKeyed_of_resolve (fun value valueKeyed => ?_)
    (show defaults.isKeyed isScalar by decide)
  cases value with
  | link cell kind => cases valueKeyed
  | _ => exact valueKeyed

/-- A dictionary is merged over the defaults to a dictionary, whose keys are texts if its own are. -/
theorem exists_merged (isDict : file.head = .dict entries) :
    ∃ merged, mergeShared defaults file = .ok merged ∧ (∃ entries, merged.root = .dict entries) ∧
      (file.cells.TextKeyed file.root → merged.cells.TextKeyed merged.root) := by
  have merges : mergeShared defaults file =
      .ok (file.part (overlay file.cells.resolve file.root defaults)) := by
    unfold mergeShared mergeWith
    rw [show file.cells.resolve file.root = .dict entries from isDict]
    rfl
  exact ⟨_, merges, (mergeShared_eq_ok merges).2,
    fun textKeyed => textKeyed_overlay textKeyed (textKeyed_defaults file.cells)⟩

/-! ## Walks -/

/-- A scalar put at a path of keys that lead through no link. -/
inductive Put (new : Scalar) : List String → Value → Value → Prop
  | here (value : Value) : Put new [] value (.scalar new)
  | entry {entries : Entries} {key : String} {rest : List String} {old now : Value} :
    Entries.get? entries key = some old → Put new rest old now →
      Put new (key :: rest) (.dict entries) (.dict (Entries.alter key (fun _ => now) entries))

variable {new : Scalar} {path : List String} {key : String} {inner changed : Entries} {cell : Nat}
  {kind : Kind} {change : Change}

theorem Put.narrowed {value value' : Value} (put : Put new path value value') :
    value.Narrowed value' := by
  induction put with
  | here value => exact .scalar value new
  | entry isThere _ inductionHypothesis =>
      obtain ⟨before, after, rfl, absent⟩ := Entries.exists_split_of_get? isThere
      rw [Entries.alter_split absent]
      exact .entry inductionHypothesis

/-- What a change puts at a path from some entries on: in these themselves, or in the last cell that
the path leads to. -/
inductive Change.Puts (new : Scalar) (cells : Cells) (entries : Entries) (path : List String) :
    Change → Prop
  | here {changed : Entries} :
    Put new path (.dict entries) (.dict changed) → Puts new cells entries path ⟨none, changed⟩
  | behind (start : List String) {rest : List String} {cell : Nat} {kind : Kind}
      {inner changed : Entries} :
    path = start ++ rest →
      Shared.entryAt? start ⟨.dict entries, cells⟩ = some ⟨.link cell kind, cells⟩ →
        cells[cell]? = some (.dict inner) → Put new rest (.dict inner) (.dict changed) →
          Puts new cells entries path ⟨some cell, changed⟩

namespace Change.Puts

theorem outside (isThere : Entries.get? entries key = some (.dict inner))
    (puts : Puts new cells inner path change) :
    Puts new cells entries (key :: path) (change.outside key entries) := by
  cases puts with
  | here put =>
      unfold Change.outside
      rw [Entries.insert_eq_alter isThere]
      exact .here (.entry isThere put)
  | @behind start rest cell kind content changed isSplit leads holds put =>
      exact .behind (key :: start) (by rw [isSplit, List.cons_append])
        (Shared.entryAt?_cons.mpr ⟨entries, _, rfl, isThere, leads⟩) holds put

theorem atCell (isThere : Entries.get? entries key = some (.link cell kind))
    (holds : cells[cell]? = some (.dict inner)) (puts : Puts new cells inner path change) :
    Puts new cells entries (key :: path) (change.atCell cell) := by
  cases puts with
  | here put =>
      exact .behind [key] rfl
        (Shared.entryAt?_cons.mpr ⟨entries, _, rfl, isThere, rfl⟩) holds put
  | @behind start rest _ _ _ changed isSplit leads holds' put =>
      have leadsOn : Shared.entryAt? start ⟨.link cell kind, cells⟩ =
          Shared.entryAt? start ⟨.dict inner, cells⟩ := by
        cases start with
        | nil => cases leads
        | cons next others =>
            rw [Shared.entryAt?, Shared.head, Data.Cells.resolve_link_of_some holds]
            rfl
      exact .behind (key :: start) (by rw [isSplit, List.cons_append])
        (Shared.entryAt?_cons.mpr ⟨entries, _, rfl, isThere, leadsOn.trans leads⟩) holds' put

theorem narrowed {settings : Shared} (isDict : settings.root = .dict entries)
    (puts : Puts new settings.cells entries path change) :
    settings.cells.Narrowed (change.apply settings).cells ∧
      settings.root.Narrowed (change.apply settings).root := by
  rw [isDict]
  cases puts with
  | here put => exact ⟨.refl _, put.narrowed⟩
  | behind _ _ _ holds put => exact ⟨.set holds put.narrowed, isDict ▸ .refl _⟩

end Change.Puts

/-- A walk through text keys comes to an end, and if it changes anything it puts its scalar at a path
of its parts. -/
theorem assignWithin_puts (textKeyed : cells.TextKeyed (.dict entries)) (new : Scalar)
    (levels : Nat) (wanted : List String) :
    assignWithin cells (.scalar new) levels wanted entries = .ok none ∨
      ∃ path change, assignWithin cells (.scalar new) levels wanted entries = .ok (some change) ∧
        path ≠ [] ∧ wanted = path.flatMap parts ∧ Change.Puts new cells entries path change := by
  induction levels generalizing wanted entries with
  | zero => exact .inl rfl
  | succ levels inductionHypothesis =>
      have texts := textKeyed [] _ entries .nil rfl rfl
      cases found : bestKey? wanted (Entries.texts entries) with
      | none => exact .inl (assignWithin_of_none texts _ found)
      | some chosen =>
          obtain ⟨key, count⟩ := chosen
          obtain ⟨member, rfl, starts, -⟩ := (bestKey?_eq_some found).1
          obtain ⟨part, isThere⟩ := Entries.mem_texts_iff.mp member
          have partKeyed := (Data.Cells.textKeyed_dict_iff.mp textKeyed).of_get? isThere
          by_cases ends : (parts key).length = wanted.length
          · refine .inr ⟨[key], _, assignWithin_of_end texts _ found ends, List.cons_ne_nil _ _, ?_, ?_⟩
            · rw [List.flatMap_singleton]
              exact (starts.eq_of_length ends).symm
            · rw [Entries.insert_eq_alter isThere]
              exact .here (.entry isThere (.here part))
          by_cases isDict : ∃ inner, cells.resolve part = .dict inner
          · obtain ⟨inner, isDict⟩ := isDict
            rcases inductionHypothesis (partKeyed.of_resolve isDict)
                (wanted.drop (parts key).length) with
              idle | ⟨path, change, walks, -, rest_eq, puts⟩
            · cases part with
              | dict own =>
                  obtain rfl : own = inner := Value.dict.inj isDict
                  exact .inl (by rw [assignWithin_of_dict texts _ found ends isThere, idle]; rfl)
              | link cell kind =>
                  have holds := Data.Cells.getElem?_of_resolve_dict isDict
                  exact .inl (by
                    rw [assignWithin_of_link texts _ found ends isThere holds, idle]
                    rfl)
              | _ => cases isDict
            · have whole := covers_cons rest_eq starts
              cases part with
              | dict own =>
                  obtain rfl : own = inner := Value.dict.inj isDict
                  exact .inr ⟨key :: path, _,
                    by rw [assignWithin_of_dict texts _ found ends isThere, walks]; rfl,
                    List.cons_ne_nil _ _, whole, puts.outside isThere⟩
              | link cell kind =>
                  have holds := Data.Cells.getElem?_of_resolve_dict isDict
                  exact .inr ⟨key :: path, _,
                    by rw [assignWithin_of_link texts _ found ends isThere holds, walks]; rfl,
                    List.cons_ne_nil _ _, whole, puts.atCell isThere holds⟩
              | _ => cases isDict
          · exact .inl (assignWithin_of_leaf texts _ found ends isThere (not_exists.mp isDict))

/-- What a walk for some parts makes of settings: itself, or settings with a scalar at a path of
these parts. -/
def IsAssigned (new : Scalar) (wanted : List String) (settings after : Shared) : Prop :=
  after = settings ∨ ∃ entries path change, settings.root = .dict entries ∧ path ≠ [] ∧
    wanted = path.flatMap parts ∧ Change.Puts new settings.cells entries path change ∧
      after = change.apply settings

theorem assigned_isAssigned (isDict : ∃ entries, settings.root = .dict entries)
    (textKeyed : settings.cells.TextKeyed settings.root) (wanted : List String) (new : Scalar) :
    ∃ after, assigned settings wanted (.scalar new) = .ok after ∧
      IsAssigned new wanted settings after := by
  obtain ⟨root, cells⟩ := settings
  obtain ⟨entries, rfl⟩ := isDict
  unfold assigned
  rcases assignWithin_puts textKeyed new wanted.length wanted with
    idle | ⟨path, change, walks, given, same, puts⟩
  · exact ⟨_, by simp only [idle]; rfl, .inl rfl⟩
  · exact ⟨_, by simp only [walks]; rfl, .inr ⟨entries, path, change, rfl, given, same, puts, rfl⟩⟩

theorem IsAssigned.narrowed {wanted : List String} {after : Shared}
    (isAssigned : IsAssigned new wanted settings after) :
    settings.cells.Narrowed after.cells ∧ settings.root.Narrowed after.root := by
  rcases isAssigned with rfl | ⟨entries, path, change, isDict, -, -, puts, rfl⟩
  · exact ⟨.refl _, .refl _⟩
  · exact puts.narrowed isDict

theorem IsAssigned.isDict {wanted : List String} {after : Shared}
    (isAssigned : IsAssigned new wanted settings after)
    (isDict : ∃ entries, settings.root = .dict entries) : ∃ entries, after.root = .dict entries := by
  rcases isAssigned with rfl | ⟨entries, path, change, -, -, -, puts, rfl⟩
  · exact isDict
  · cases puts with
    | here put => exact ⟨_, rfl⟩
    | behind => exact isDict

/-! ## All variables -/

/-- Variables that have values are all taken, and what each of them keeps in its turn is kept. -/
theorem exists_overrideAll (kept : Shared → List (List String × String) → Shared → Prop)
    (none : ∀ settings, kept settings [] settings)
    (one : ∀ {settings next after wanted text new rest}, coerce text = .ok (.scalar new) →
      IsAssigned new wanted settings next → kept next rest after →
        kept settings ((wanted, text) :: rest) after)
    (isDict : ∃ entries, settings.root = .dict entries)
    (textKeyed : settings.cells.TextKeyed settings.root) {named : List (List String × String)}
    (coercible : ∀ assignment ∈ named, ∃ value, coerce assignment.2 = .ok value) :
    ∃ after, overrideAll settings named = .ok after ∧ (∃ entries, after.root = .dict entries) ∧
      kept settings named after := by
  induction named generalizing settings with
  | nil => exact ⟨settings, rfl, isDict, none settings⟩
  | cons assignment rest inductionHypothesis =>
      obtain ⟨wanted, text⟩ := assignment
      obtain ⟨⟨value, coerced⟩, others⟩ := List.forall_mem_cons.mp coercible
      obtain ⟨new, rfl⟩ := exists_scalar_of_coerce coerced
      obtain ⟨next, assigns, isAssigned⟩ := assigned_isAssigned isDict textKeyed wanted new
      obtain ⟨cellsNarrowed, rootNarrowed⟩ := isAssigned.narrowed
      obtain ⟨after, overrides, afterDict, isKept⟩ := inductionHypothesis
        (isAssigned.isDict isDict) (cellsNarrowed.textKeyed rootNarrowed textKeyed) others
      refine ⟨after, ?_, afterDict, one coerced isAssigned isKept⟩
      rw [overrideAll, overrideOne, coerced]
      simp only [assigns, overrides]

/-- Variables are not set unless each of them has a value. -/
theorem coercible_of_overrideAll {after : Shared} {named : List (List String × String)}
    (returns : overrideAll settings named = .ok after) :
    ∀ assignment ∈ named, ∃ value, coerce assignment.2 = .ok value := by
  induction named generalizing settings with
  | nil => exact fun _ member => absurd member List.not_mem_nil
  | cons assignment rest inductionHypothesis =>
      obtain ⟨wanted, text⟩ := assignment
      rw [overrideAll, overrideOne] at returns
      cases coerced : coerce text with
      | error fault =>
          rw [coerced] at returns
          cases returns
      | ok value =>
          rw [coerced] at returns
          dsimp only at returns
          split at returns
          · cases returns
          · exact List.forall_mem_cons.mpr ⟨⟨value, coerced⟩, inductionHypothesis returns⟩

theorem coercible_of_assignments
    (coercible : ∀ assignment ∈ assignments environment, ∃ value, coerce assignment.2 = .ok value) :
    Coercible environment := by
  intro name text member names
  obtain ⟨suffix, hasSuffix⟩ := Option.isSome_iff_exists.mp names
  refine coercible (parts suffix, text) (List.mem_filterMap.mpr ⟨(name, text), member, ?_⟩)
  simp only [variableParts?_eq, hasSuffix]
  rfl

theorem coercible_of_override {after : Shared} (returns : override environment settings = .ok after) :
    Coercible environment :=
  coercible_of_assignments (coercible_of_overrideAll returns)

section Returns

variable (isDict : ∃ entries, settings.root = .dict entries)
  (textKeyed : settings.cells.TextKeyed settings.root)

include isDict textKeyed

theorem override_returns (coercible : Coercible environment) :
    ∃ after, override environment settings = .ok after ∧ ∃ entries, after.root = .dict entries := by
  obtain ⟨after, overrides, afterDict, -⟩ := exists_overrideAll (fun _ _ _ => True)
    (fun _ => trivial) (fun _ _ _ => trivial) isDict textKeyed (coercible_assignments coercible)
  exact ⟨after, overrides, afterDict⟩

/-- **Variables can be set in settings with text keys if and only if each of them has a value.** -/
theorem override_returns_iff :
    (∃ after, override environment settings = .ok after) ↔ Coercible environment := by
  refine ⟨fun ⟨_, returns⟩ => coercible_of_override returns, fun coercible => ?_⟩
  obtain ⟨after, returns, -⟩ := override_returns isDict textKeyed coercible
  exact ⟨after, returns⟩

/-- Settings with text keys stay a dictionary. -/
theorem exists_dict_of_override {after : Shared}
    (returns : override environment settings = .ok after) :
    ∃ entries, after.root = .dict entries := by
  obtain ⟨other, same, isDict⟩ :=
    override_returns isDict textKeyed (coercible_of_override returns)
  obtain rfl : after = other := Except.ok.inj (returns.symm.trans same)
  exact isDict

end Returns

-- A digit that no whole number is written with, and a key that is no text.
example : (coerce "²").toOption.isNone := by decide +kernel

example : assigned (.plain (.dict [(.int 1, .null)])) ["git"] (.text "hub") =
    .error (.noOperation .int "split") := rfl

end Settings
end Provenance
