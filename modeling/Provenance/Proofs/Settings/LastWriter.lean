import Provenance.Proofs.Data.Plain
import Provenance.Proofs.Settings.Layers

/-!
Contract: layers of settings, one over another, and which of them an entry comes from.

Owns:
- `Speaks` and `IsLastSpeaker`: which layers have a say about a path, and which of them the last;
- `entryAt?_overlay_of_speaks` and `entryAt?_overlay_of_silent`, one layer over another;
- `IsMerged`: the order of the keys, and that a layer laid over again changes nothing;
- `foldlM_merge_lastWriterWins`: of any number of layers, the last that speaks about a path decides.

Does **not** own: layers with shared parts, and where layers come from.

## What a layer says

A layer speaks about the paths that it has something at.  A value that is no dictionary also speaks
about all paths through it, and says that nothing is there: laid over a dictionary it takes all of
its entries away, and a later dictionary starts anew.  So merging is not associative, but the last
speaker still decides.
-/

set_option autoImplicit false

namespace Provenance

open Data (Scalar Value Entries)

namespace Settings

variable {path rest : List String} {upper lower layer base merged : Value}
  {upperEntries lowerEntries : Entries} {layers : List Value} {key : String}

/-! ## Layers -/

/-- A dictionary of settings, in which every key is a text and stands once. -/
structure IsLayer (layer : Value) : Prop where
  isDict : ∃ entries, layer = .dict entries
  isTree : layer.IsTree

/-! ## One layer over another -/

theorem overlay_dict (upper lower : Entries) :
    overlay id (.dict upper) (.dict lower) =
      .dict (overlayEntries id upper lower ++ newEntries lower upper) := by
  rw [overlay]
  rfl

theorem overlay_of_leaf (unlike : ∀ entries, upper ≠ .dict entries) (lower : Value) :
    overlay id upper lower = upper := by
  rcases overlay_cases id upper lower with same | ⟨_, entries, -, isDict, -⟩
  · exact same
  · exact absurd isDict (unlike entries)

theorem overlay_onto_leaf (unlike : ∀ entries, lower ≠ .dict entries) (upper : Value) :
    overlay id upper lower = upper := by
  rcases overlay_cases id upper lower with same | ⟨entries, _, isDict, -, -⟩
  · exact same
  · exact absurd isDict (unlike entries)

theorem merge_eq_ok (lowerDict : ∃ entries, lower = .dict entries)
    (upperDict : ∃ entries, upper = .dict entries) :
    merge lower upper = .ok (overlay id upper lower) := by
  obtain ⟨lowerEntries, rfl⟩ := lowerDict
  obtain ⟨upperEntries, rfl⟩ := upperDict
  rfl

theorem overlayEntries_eq_map (resolve : Value → Value) (upper lower : Entries) :
    overlayEntries resolve upper lower = lower.map fun (key, value) =>
      (key, match upper.find? key with
        | some found => overlay resolve found value
        | none => value) := by
  induction lower with
  | nil => rfl
  | cons entry rest inductionHypothesis =>
      rw [overlayEntries, inductionHypothesis]
      rfl

theorem overlayEntries_append (resolve : Value → Value) (upper first second : Entries) :
    overlayEntries resolve upper (first ++ second) =
      overlayEntries resolve upper first ++ overlayEntries resolve upper second := by
  rw [overlayEntries_eq_map, List.map_append, ← overlayEntries_eq_map, ← overlayEntries_eq_map]

/-- Under texts: the lower entries, each under the upper one of its key, and behind them what is
new. -/
theorem overlay_record (upper lower : List (String × Value)) :
    overlay id (.record upper) (.record lower) = .record
      (lower.map (fun entry => (entry.1, overlaid id (Entries.named upper) entry.1 entry.2)) ++
        upper.filter fun entry => !Entries.hasKey (Entries.named lower) (.text entry.1)) := by
  change overlay id (.dict (Entries.named upper)) (.dict (Entries.named lower)) = _
  rw [overlay_dict, overlayEntries_eq_map, newEntries, Value.record, List.map_append,
    Entries.named, Entries.named, List.map_map, List.map_map, List.filter_map]
  rfl

/-! ## What a layer speaks about -/

/-- A layer has something at a path, or something other than a dictionary on the way there. -/
def Speaks (path : List String) (layer : Value) : Prop :=
  (∃ found, layer.entryAt? path = some found) ∨
    ∃ start found, start <+: path ∧ start ≠ path ∧ layer.entryAt? start = some found ∧
      ∀ entries, found ≠ .dict entries

/-- Two things at a path are the same, but for the entries of dictionaries. -/
def AreAlike (first second : Option Value) : Prop :=
  first = second ∨ (∃ entries, first = some (.dict entries)) ∧ ∃ entries, second = some (.dict entries)

theorem speaks_of_leaf (unlike : ∀ entries, layer ≠ .dict entries) (path : List String) :
    Speaks path layer := by
  cases path with
  | nil => exact .inl ⟨layer, rfl⟩
  | cons key rest =>
      exact .inr ⟨[], layer, List.nil_prefix, (List.cons_ne_nil key rest).symm, rfl, unlike⟩

theorem speaks_cons_iff :
    Speaks (key :: rest) (.dict upperEntries) ↔
      ∃ part, Entries.get? upperEntries key = some part ∧ Speaks rest part := by
  constructor
  · rintro (⟨found, isThere⟩ | ⟨start, found, isStart, proper, isThere, unlike⟩)
    · obtain ⟨_, part, isDict, isEntry, behind⟩ := Data.Value.entryAt?_cons.mp isThere
      obtain rfl := Value.dict.inj isDict
      exact ⟨part, isEntry, .inl ⟨found, behind⟩⟩
    · cases start with
      | nil => exact absurd (Option.some.inj isThere).symm (unlike upperEntries)
      | cons first others =>
          obtain ⟨rfl, isStartInside⟩ := List.cons_prefix_cons.mp isStart
          obtain ⟨_, part, isDict, isEntry, behind⟩ := Data.Value.entryAt?_cons.mp isThere
          obtain rfl := Value.dict.inj isDict
          refine ⟨part, isEntry, .inr ⟨others, found, isStartInside, ?_, behind, unlike⟩⟩
          exact fun same => proper (by rw [same])
  · rintro ⟨part, isEntry, ⟨found, behind⟩ | ⟨start, found, isStart, proper, behind, unlike⟩⟩
    · exact .inl ⟨found, Data.Value.entryAt?_cons.mpr ⟨_, part, rfl, isEntry, behind⟩⟩
    · exact .inr ⟨key :: start, found, List.cons_prefix_cons.mpr ⟨rfl, isStart⟩,
        fun same => proper (List.cons_injective same),
        Data.Value.entryAt?_cons.mpr ⟨_, part, rfl, isEntry, behind⟩, unlike⟩

/-- What is at a path behind a key of two dictionaries, one over the other. -/
theorem entryAt?_overlay_cons :
    (overlay id (.dict upperEntries) (.dict lowerEntries)).entryAt? (key :: rest) =
      match Entries.get? lowerEntries key with
      | some value => (overlaid id upperEntries key value).entryAt? rest
      | none => (Value.dict upperEntries).entryAt? (key :: rest) := by
  rw [overlay_dict, Value.entryAt?, Value.entry?, get?_overlaid]
  cases Entries.get? lowerEntries key <;> rfl

/-- The paths that the upper layer speaks about are the upper layer's. -/
theorem entryAt?_overlay_of_speaks (speaks : Speaks path upper) (lower : Value) :
    AreAlike ((overlay id upper lower).entryAt? path) (upper.entryAt? path) := by
  induction path generalizing upper lower with
  | nil =>
      rcases overlay_cases id upper lower with same | ⟨_, upperEntries, -, isDict, merged⟩
      · rw [same]
        exact .inl rfl
      · rw [merged]
        exact .inr ⟨⟨_, rfl⟩, upperEntries, congrArg some isDict⟩
  | cons key rest inductionHypothesis =>
      rcases overlay_cases id upper lower with
        same | ⟨lowerEntries, upperEntries, rfl, rfl, -⟩
      · rw [same]
        exact .inl rfl
      · obtain ⟨part, isEntry, speaksInside⟩ := speaks_cons_iff.mp speaks
        have upperAt : (Value.dict upperEntries).entryAt? (key :: rest) = part.entryAt? rest := by
          rw [Value.entryAt?, Value.entry?, isEntry, Option.bind_some]
        rw [entryAt?_overlay_cons]
        cases Entries.get? lowerEntries key with
        | none => exact .inl rfl
        | some value =>
            simp only [overlaid, isEntry]
            rw [upperAt]
            exact inductionHypothesis speaksInside value

/-- The other paths are the lower layer's. -/
theorem entryAt?_overlay_of_silent (silent : ¬ Speaks path upper) (lower : Value) :
    (overlay id upper lower).entryAt? path = lower.entryAt? path := by
  induction path generalizing upper lower with
  | nil => exact absurd (.inl ⟨upper, rfl⟩) silent
  | cons key rest inductionHypothesis =>
      have isDict : ∃ entries, upper = .dict entries := by
        by_contra unlike
        exact silent (speaks_of_leaf (not_exists.mp unlike) _)
      obtain ⟨upperEntries, rfl⟩ := isDict
      have upperAbsent : (Value.dict upperEntries).entryAt? (key :: rest) = none := by
        by_contra isThere
        exact silent (.inl (Option.ne_none_iff_exists'.mp isThere))
      by_cases lowerDict : ∃ entries, lower = .dict entries
      · obtain ⟨lowerEntries, rfl⟩ := lowerDict
        have lowerAt : (Value.dict lowerEntries).entryAt? (key :: rest) =
            (Entries.get? lowerEntries key).bind (Value.entryAt? rest) := rfl
        rw [entryAt?_overlay_cons, lowerAt]
        cases Entries.get? lowerEntries key with
        | none => exact upperAbsent
        | some value =>
            dsimp only [overlaid, Option.bind_some]
            cases isEntry : Entries.get? upperEntries key with
            | none => rfl
            | some part =>
                exact inductionHypothesis
                  (fun speaks => silent (speaks_cons_iff.mpr ⟨part, isEntry, speaks⟩)) value
      · have unlike := not_exists.mp lowerDict
        rw [overlay_onto_leaf unlike, upperAbsent, Value.entryAt?,
          Data.Value.entry?_of_ne_dict unlike, Option.bind_none]

/-! ## Layer over layer -/

/-- Layers over a lowest one. -/
def stacked (base : Value) (layers : List Value) : Value :=
  layers.foldl (fun lower upper => overlay id upper lower) base

/-- The last of some layers that speaks about a path. -/
def IsLastSpeaker (layers : List Value) (path : List String) (layer : Value) : Prop :=
  ∃ before after, layers = before ++ layer :: after ∧ Speaks path layer ∧
    ∀ later ∈ after, ¬ Speaks path later

theorem exists_lastSpeaker (speaks : ∃ layer ∈ layers, Speaks path layer) :
    ∃ layer, IsLastSpeaker layers path layer := by
  induction layers with
  | nil =>
      obtain ⟨layer, member, -⟩ := speaks
      cases member
  | cons first later inductionHypothesis =>
      by_cases more : ∃ layer ∈ later, Speaks path layer
      · obtain ⟨layer, before, after, rfl, speaksLast, silent⟩ := inductionHypothesis more
        exact ⟨layer, first :: before, after, rfl, speaksLast, silent⟩
      · obtain ⟨layer, member, speaksHere⟩ := speaks
        rcases List.mem_cons.mp member with rfl | isLater
        · exact ⟨layer, [], later, rfl, speaksHere,
            fun other isOther speaksToo => more ⟨other, isOther, speaksToo⟩⟩
        · exact absurd ⟨layer, isLater, speaksHere⟩ more

theorem entryAt?_stacked_of_silent (silent : ∀ layer ∈ layers, ¬ Speaks path layer) (base : Value) :
    (stacked base layers).entryAt? path = base.entryAt? path := by
  induction layers generalizing base with
  | nil => rfl
  | cons first later inductionHypothesis =>
      obtain ⟨silentFirst, silentLater⟩ := List.forall_mem_cons.mp silent
      have below := inductionHypothesis silentLater (overlay id first base)
      exact below.trans (entryAt?_overlay_of_silent silentFirst base)

/-- The last speaker decides what is at a path. -/
theorem entryAt?_stacked_of_lastSpeaker (isLast : IsLastSpeaker (base :: layers) path layer) :
    AreAlike ((stacked base layers).entryAt? path) (layer.entryAt? path) := by
  obtain ⟨before, after, isSplit, speaks, silent⟩ := isLast
  cases before with
  | nil =>
      obtain ⟨rfl, rfl⟩ := List.cons.inj isSplit
      exact .inl (entryAt?_stacked_of_silent silent base)
  | cons first between =>
      rw [List.cons_append, List.cons.injEq] at isSplit
      obtain ⟨rfl, rfl⟩ := isSplit
      have above : stacked base (between ++ layer :: after) =
          stacked (overlay id layer (stacked base between)) after := List.foldl_append
      rw [above, entryAt?_stacked_of_silent silent]
      exact entryAt?_overlay_of_speaks speaks _

theorem entryAt?_stacked_of_none (silent : ∀ layer ∈ base :: layers, ¬ Speaks path layer) :
    (stacked base layers).entryAt? path = none := by
  obtain ⟨silentBase, silentLayers⟩ := List.forall_mem_cons.mp silent
  rw [entryAt?_stacked_of_silent silentLayers]
  by_contra isThere
  exact silentBase (.inl (Option.ne_none_iff_exists'.mp isThere))

/-- What stands at a path of the merged layers is what stands there in the last of them that speaks
about the path. -/
structure IsLastWriterWins (layers : List Value) (merged : Value) : Prop where
  leaf : ∀ path value, (∀ entries, value ≠ .dict entries) →
    (merged.entryAt? path = some value ↔
      ∃ layer, IsLastSpeaker layers path layer ∧ layer.entryAt? path = some value)
  dictionary : ∀ path, (∃ entries, merged.entryAt? path = some (.dict entries)) ↔
    ∃ layer entries, IsLastSpeaker layers path layer ∧ layer.entryAt? path = some (.dict entries)
  absent : ∀ path, merged.entryAt? path = none ↔
    ∀ layer, IsLastSpeaker layers path layer → layer.entryAt? path = none

namespace AreAlike

variable {first second : Option Value} {value : Value}

theorem symm (alike : AreAlike first second) : AreAlike second first :=
  alike.imp Eq.symm And.symm

theorem eq_some (alike : AreAlike first second) (unlike : ∀ entries, value ≠ .dict entries)
    (isThere : first = some value) : second = some value := by
  rcases alike with rfl | ⟨⟨entries, isDict⟩, -⟩
  · exact isThere
  · exact absurd (Option.some.inj (isThere.symm.trans isDict)) (unlike entries)

theorem exists_dict (alike : AreAlike first second)
    (isThere : ∃ entries, first = some (.dict entries)) :
    ∃ entries, second = some (.dict entries) := by
  rcases alike with rfl | ⟨-, isDict⟩
  · exact isThere
  · exact isDict

theorem eq_none (alike : AreAlike first second) (absent : first = none) : second = none := by
  rcases alike with rfl | ⟨⟨entries, isDict⟩, -⟩
  · exact absent
  · cases absent.symm.trans isDict

end AreAlike

theorem isLastWriterWins_stacked (base : Value) (layers : List Value) :
    IsLastWriterWins (base :: layers) (stacked base layers) := by
  have decides : ∀ path, (stacked base layers).entryAt? path = none ∧
        (∀ layer, ¬ IsLastSpeaker (base :: layers) path layer) ∨
      ∃ layer, IsLastSpeaker (base :: layers) path layer := by
    intro path
    by_cases speaks : ∃ layer ∈ base :: layers, Speaks path layer
    · exact .inr (exists_lastSpeaker speaks)
    · refine .inl ⟨entryAt?_stacked_of_none fun layer member speaksToo =>
        speaks ⟨layer, member, speaksToo⟩, ?_⟩
      rintro layer ⟨before, after, isSplit, speaksToo, -⟩
      refine speaks ⟨layer, ?_, speaksToo⟩
      rw [isSplit]
      exact List.mem_append_right _ List.mem_cons_self
  refine ⟨fun path value unlike => ⟨fun isThere => ?_, ?_⟩, fun path => ⟨fun isThere => ?_, ?_⟩,
    fun path => ⟨fun absent layer isLast => ?_, fun absent => ?_⟩⟩
  · rcases decides path with ⟨absent, -⟩ | ⟨layer, isLast⟩
    · cases absent.symm.trans isThere
    · exact ⟨layer, isLast, (entryAt?_stacked_of_lastSpeaker isLast).eq_some unlike isThere⟩
  · rintro ⟨layer, isLast, isThere⟩
    exact (entryAt?_stacked_of_lastSpeaker isLast).symm.eq_some unlike isThere
  · rcases decides path with ⟨absent, -⟩ | ⟨layer, isLast⟩
    · obtain ⟨entries, isDict⟩ := isThere
      cases absent.symm.trans isDict
    · obtain ⟨entries, isDict⟩ := (entryAt?_stacked_of_lastSpeaker isLast).exists_dict isThere
      exact ⟨layer, entries, isLast, isDict⟩
  · rintro ⟨layer, entries, isLast, isDict⟩
    exact (entryAt?_stacked_of_lastSpeaker isLast).symm.exists_dict ⟨entries, isDict⟩
  · exact (entryAt?_stacked_of_lastSpeaker isLast).eq_none absent
  · rcases decides path with ⟨isAbsent, -⟩ | ⟨layer, isLast⟩
    · exact isAbsent
    · exact (entryAt?_stacked_of_lastSpeaker isLast).symm.eq_none (absent layer isLast)

/-! ## The order of the keys -/

theorem keys_overlayEntries (resolve : Value → Value) (upper lower : Entries) :
    Entries.keys (overlayEntries resolve upper lower) = Entries.keys lower := by
  rw [overlayEntries_eq_map, Entries.keys, List.map_map]
  rfl

theorem keys_newEntries (named : List (String × Value)) (lower : Entries) :
    Entries.keys (newEntries lower (Entries.named named)) =
      (Entries.keys (Entries.named named)).filter fun key => key ∉ Entries.keys lower := by
  change List.map Prod.fst (newEntries lower _) = List.filter _ (List.map Prod.fst _)
  rw [newEntries, List.filter_map]
  congr 1
  refine List.filter_congr fun entry member => ?_
  obtain ⟨⟨name, value⟩, -, rfl⟩ := List.mem_map.mp member
  rw [Function.comp_apply, Bool.eq_iff_iff, Bool.not_eq_true', ← Bool.not_eq_true,
    Entries.hasKey_text_iff, decide_eq_true_iff]

/-- Where both layers have a dictionary, the merged one is one over the other. -/
theorem entryAt?_overlay_of_dicts (lowerAt : lower.entryAt? path = some (.dict lowerEntries))
    (upperAt : upper.entryAt? path = some (.dict upperEntries)) :
    (overlay id upper lower).entryAt? path =
      some (overlay id (.dict upperEntries) (.dict lowerEntries)) := by
  induction path generalizing upper lower with
  | nil =>
      obtain rfl := Option.some.inj lowerAt
      obtain rfl := Option.some.inj upperAt
      rfl
  | cons key rest inductionHypothesis =>
      obtain ⟨lowerAround, lowerPart, rfl, inLower, lowerBehind⟩ := Data.Value.entryAt?_cons.mp lowerAt
      obtain ⟨upperAround, upperPart, rfl, inUpper, upperBehind⟩ := Data.Value.entryAt?_cons.mp upperAt
      rw [entryAt?_overlay_cons, inLower]
      simp only [overlaid, inUpper]
      exact inductionHypothesis lowerBehind upperBehind

/-! ## A layer laid over again -/

variable {named : List (String × Value)}

/-- What a layer of entries under texts, each once, makes of its own entries: nothing else, if none
of their values does. -/
theorem overlayEntries_of_subset (distinct : (named.map Prod.fst).Nodup) {entries : Entries}
    (subset : entries ⊆ Entries.named named)
    (fixed : ∀ entry ∈ named, overlay id entry.2 entry.2 = entry.2) :
    overlayEntries id (Entries.named named) entries = entries := by
  rw [overlayEntries_eq_map]
  refine (List.map_congr_left fun entry member => ?_).trans (List.map_id entries)
  obtain ⟨⟨name, value⟩, isEntry, rfl⟩ := List.mem_map.mp (subset member)
  have found : Entries.find? (.text name) (Entries.named named) = some value :=
    Entries.get?_named distinct isEntry
  simp only [found, fixed _ isEntry, id_def]

theorem overlayEntries_overlayEntries
    (fixed : ∀ entry ∈ named, ∀ lower, overlay id entry.2 (overlay id entry.2 lower) =
      overlay id entry.2 lower) (lower : Entries) :
    overlayEntries id (Entries.named named) (overlayEntries id (Entries.named named) lower) =
      overlayEntries id (Entries.named named) lower := by
  rw [overlayEntries_eq_map, overlayEntries_eq_map, List.map_map]
  refine List.map_congr_left fun entry member => ?_
  obtain ⟨key, value⟩ := entry
  simp only [Function.comp_apply]
  cases found : Entries.find? key (Entries.named named) with
  | none => rfl
  | some high =>
      obtain ⟨entry, isEntry, rfl⟩ := Entries.exists_mem_of_find?_named found
      simp only [fixed entry isEntry value]

theorem newEntries_eq_nil {known : Entries}
    (isKnown : ∀ entry ∈ named, Entries.hasKey known (.text entry.1)) :
    newEntries known (Entries.named named) = [] := by
  rw [newEntries, List.filter_eq_nil_iff]
  intro entry member
  obtain ⟨⟨name, value⟩, isEntry, rfl⟩ := List.mem_map.mp member
  simp [isKnown _ isEntry]

theorem overlay_self (isTree : upper.IsTree) : overlay id upper upper = upper := by
  induction isTree with
  | leaf unlike => exact overlay_of_leaf unlike _
  | @record named distinct trees inductionHypothesis =>
      have nothingNew : newEntries (Entries.named named) (Entries.named named) = [] :=
        newEntries_eq_nil fun entry member => by
          rw [Entries.hasKey_text_iff]
          exact List.mem_map_of_mem (List.mem_map_of_mem member)
      change overlay id (.dict (Entries.named named)) (.dict (Entries.named named)) = _
      rw [overlay_dict, nothingNew, List.append_nil,
        overlayEntries_of_subset distinct (List.Subset.refl _) inductionHypothesis]
      rfl

/-- **A layer laid over a second time changes nothing.** -/
theorem overlay_overlay (isTree : upper.IsTree) (lower : Value) :
    overlay id upper (overlay id upper lower) = overlay id upper lower := by
  induction isTree generalizing lower with
  | leaf unlike => rw [overlay_of_leaf unlike, overlay_of_leaf unlike]
  | @record named distinct trees inductionHypothesis =>
      by_cases lowerDict : ∃ entries, lower = .dict entries
      · obtain ⟨lowerEntries, rfl⟩ := lowerDict
        change overlay id (.dict (Entries.named named)) (overlay id (.dict (Entries.named named)) _) =
          overlay id (.dict (Entries.named named)) _
        have new : overlayEntries id (Entries.named named)
              (newEntries lowerEntries (Entries.named named)) =
            newEntries lowerEntries (Entries.named named) :=
          overlayEntries_of_subset distinct List.filter_sublist.subset
            fun entry member => overlay_self (trees entry member)
        have nothingNew : newEntries (overlayEntries id (Entries.named named) lowerEntries ++
              newEntries lowerEntries (Entries.named named)) (Entries.named named) = [] := by
          refine newEntries_eq_nil fun entry member => ?_
          rw [Entries.hasKey, ← Entries.get?, get?_overlaid, Entries.get?_named distinct member]
          cases Entries.get? lowerEntries entry.1 <;> rfl
        rw [overlay_dict, overlay_dict, nothingNew, List.append_nil, overlayEntries_append,
          overlayEntries_overlayEntries inductionHypothesis, new]
      · rw [overlay_onto_leaf (not_exists.mp lowerDict)]
        exact overlay_self (.record distinct trees)

/-- A key of the lower entries is no new one, so each key of both stands there once. -/
theorem nodup_overlaid {lowerNamed : List (String × Value)} {change : String × Value → Value}
    (distinct : (named.map Prod.fst).Nodup) (lowerDistinct : (lowerNamed.map Prod.fst).Nodup) :
    ((lowerNamed.map (fun entry => (entry.1, change entry)) ++ named.filter fun entry =>
      !Entries.hasKey (Entries.named lowerNamed) (.text entry.1)).map Prod.fst).Nodup := by
  rw [List.map_append, List.map_map, List.nodup_append]
  refine ⟨lowerDistinct, distinct.sublist (List.filter_sublist.map Prod.fst), ?_⟩
  rintro name inLower _ inUpper rfl
  obtain ⟨entry, isNew, rfl⟩ := List.mem_map.mp inUpper
  have unknown := (List.mem_filter.mp isNew).2
  obtain ⟨old, isOld, same⟩ := List.mem_map.mp inLower
  have known : Entries.hasKey (Entries.named lowerNamed) (.text entry.1) = true := by
    rw [Entries.hasKey_text_iff, ← same]
    exact List.mem_map_of_mem (List.mem_map_of_mem isOld)
  simp [known] at unknown

/-- One layer over another is one. -/
theorem isTree_overlay (upperTree : upper.IsTree) (lowerTree : lower.IsTree) :
    (overlay id upper lower).IsTree := by
  induction upperTree generalizing lower with
  | leaf unlike =>
      rw [overlay_of_leaf unlike]
      exact .leaf unlike
  | @record named distinct trees inductionHypothesis =>
      cases lowerTree with
      | leaf unlike =>
          rw [overlay_onto_leaf unlike]
          exact .record distinct trees
      | @record lowerNamed lowerDistinct lowerTrees =>
          rw [overlay_record]
          refine .record (nodup_overlaid distinct lowerDistinct) fun entry member => ?_
          rcases List.mem_append.mp member with inLower | inUpper
          · obtain ⟨old, isOld, rfl⟩ := List.mem_map.mp inLower
            dsimp only [overlaid]
            cases found : Entries.get? (Entries.named named) old.1 with
            | none => exact lowerTrees old isOld
            | some high =>
                obtain ⟨entry, isEntry, rfl⟩ := Entries.exists_mem_of_find?_named found
                exact inductionHypothesis entry isEntry (lowerTrees old isOld)
          · exact trees entry (List.mem_filter.mp inUpper).1

/-! ## Merging -/

/-- What a single merge makes of two layers. -/
structure IsMerged (lower upper merged : Value) : Prop where
  /-- Where both have a dictionary, the keys are those of the lower one in their order, and behind
  them the new ones of the upper one in theirs. -/
  keys : ∀ path lowerEntries upperEntries, lower.entryAt? path = some (.dict lowerEntries) →
    upper.entryAt? path = some (.dict upperEntries) →
      ∃ entries, merged.entryAt? path = some (.dict entries) ∧
        Entries.keys entries = Entries.keys lowerEntries ++
          (Entries.keys upperEntries).filter fun key => key ∉ Entries.keys lowerEntries
  again : merge merged upper = .ok merged

/-- Every dictionary in a layer has texts as keys. -/
theorem exists_named_of_entryAt? (isTree : upper.IsTree)
    (isThere : upper.entryAt? path = some (.dict upperEntries)) :
    ∃ named, upperEntries = Entries.named named := by
  induction path generalizing upper with
  | nil =>
      obtain rfl := Option.some.inj isThere
      obtain ⟨named, rfl, -⟩ := isTree.exists_named
      exact ⟨named, rfl⟩
  | cons key rest inductionHypothesis =>
      obtain ⟨around, part, rfl, isEntry, behind⟩ := Data.Value.entryAt?_cons.mp isThere
      obtain ⟨named, rfl, trees⟩ := isTree.exists_named
      obtain ⟨entry, isNamed, rfl⟩ := Entries.exists_mem_of_find?_named isEntry
      exact inductionHypothesis (trees entry isNamed) behind

theorem isMerged_overlay (lowerLayer : IsLayer lower) (upperLayer : IsLayer upper) :
    IsMerged lower upper (overlay id upper lower) where
  keys := by
    intro path lowerEntries upperEntries lowerAt upperAt
    obtain ⟨named, rfl⟩ := exists_named_of_entryAt? upperLayer.isTree upperAt
    refine ⟨_, (entryAt?_overlay_of_dicts lowerAt upperAt).trans
      (congrArg some (overlay_dict _ _)), ?_⟩
    have append_keys : ∀ first second : Entries,
        Entries.keys (first ++ second) = Entries.keys first ++ Entries.keys second :=
      fun _ _ => List.map_append
    rw [append_keys, keys_overlayEntries, keys_newEntries]
  again := by
    have mergedDict : ∃ entries, overlay id upper lower = .dict entries := by
      obtain ⟨lowerEntries, rfl⟩ := lowerLayer.isDict
      obtain ⟨upperEntries, rfl⟩ := upperLayer.isDict
      exact ⟨_, overlay_dict _ _⟩
    rw [merge_eq_ok mergedDict upperLayer.isDict, overlay_overlay upperLayer.isTree]

theorem isLayer_overlay (lowerLayer : IsLayer lower) (upperLayer : IsLayer upper) :
    IsLayer (overlay id upper lower) where
  isDict := by
    obtain ⟨lowerEntries, rfl⟩ := lowerLayer.isDict
    obtain ⟨upperEntries, rfl⟩ := upperLayer.isDict
    exact ⟨_, overlay_dict _ _⟩
  isTree := isTree_overlay upperLayer.isTree lowerLayer.isTree

theorem foldlM_merge_eq_ok (areLayers : ∀ layer ∈ base :: layers, IsLayer layer) :
    layers.foldlM merge base = .ok (stacked base layers) ∧ IsLayer (stacked base layers) := by
  induction layers generalizing base with
  | nil => exact ⟨rfl, areLayers base List.mem_cons_self⟩
  | cons first later inductionHypothesis =>
      obtain ⟨baseLayer, others⟩ := List.forall_mem_cons.mp areLayers
      obtain ⟨firstLayer, laterLayers⟩ := List.forall_mem_cons.mp others
      have step := isLayer_overlay baseLayer firstLayer
      rw [List.foldlM_cons, merge_eq_ok baseLayer.isDict firstLayer.isDict]
      exact inductionHypothesis (List.forall_mem_cons.mpr ⟨step, laterLayers⟩)

/-- **Of any number of layers, the last one that speaks about a path decides** what is there.  Merged
layers are a layer again; a single merge keeps the keys of the lower layer in front and appends what
is new, and to merge the same layer again changes nothing. -/
theorem foldlM_merge_lastWriterWins (base : Value) (layers : List Value)
    (areLayers : ∀ layer ∈ base :: layers, IsLayer layer) :
    (∃ merged, layers.foldlM merge base = .ok merged ∧ IsLayer merged ∧
      IsLastWriterWins (base :: layers) merged) ∧
    ∀ lower upper, IsLayer lower → IsLayer upper →
      ∃ merged, merge lower upper = .ok merged ∧ IsMerged lower upper merged := by
  obtain ⟨merges, isLayer⟩ := foldlM_merge_eq_ok areLayers
  refine ⟨⟨_, merges, isLayer, isLastWriterWins_stacked base layers⟩, ?_⟩
  intro lower upper lowerLayer upperLayer
  exact ⟨_, merge_eq_ok lowerLayer.isDict upperLayer.isDict, isMerged_overlay lowerLayer upperLayer⟩

/-- A section that a number replaces, and that a later layer opens anew. -/
def reopened : List Value :=
  [.record [("a", .int 5)], .record [("a", .record [("c", .int 2)])]]

/-- A section, a number over it and another section over that. -/
theorem foldlM_merge_lastWriterWins_reopened :
    (∃ merged, reopened.foldlM merge (.record [("a", .record [("k", .int 1)])]) = .ok merged ∧
      IsLayer merged ∧
        IsLastWriterWins (.record [("a", .record [("k", .int 1)])] :: reopened) merged) ∧
    ∀ lower upper, IsLayer lower → IsLayer upper →
      ∃ merged, merge lower upper = .ok merged ∧ IsMerged lower upper merged := by
  have number : ∀ value : Int, (Value.int value).IsTree := fun _ => .leaf fun _ equal => nomatch equal
  have single : ∀ {key : String} {value : Value}, value.IsTree → IsLayer (.record [(key, value)]) :=
    fun tree => ⟨⟨_, rfl⟩, .record (List.nodup_singleton _) (List.forall_mem_singleton.mpr tree)⟩
  refine foldlM_merge_lastWriterWins _ _ (List.forall_mem_cons.mpr ⟨single (single (number 1)).isTree,
    List.forall_mem_cons.mpr ⟨single (number 5), List.forall_mem_singleton.mpr ?_⟩⟩)
  exact single (single (number 2)).isTree

-- Of the first section nothing is left.
example : (reopened.foldlM merge (.record [("a", .record [("k", .int 1)])])).map
    (·.entryAt? ["a", "k"]) = .ok none := rfl

end Settings
end Provenance
