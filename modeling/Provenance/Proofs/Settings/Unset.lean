import Provenance.Proofs.Settings.Alike
import Provenance.Proofs.Settings.Outcome

/-!
Contract: variables that name no setting.

Owns:
- `Lacks`, settings without a key at their top, and that every variable leaves them so;
- `override_unset`: a variable of one part that names no such key may be taken from the environment;
- `exists_dict_of_underlying`: the settings under the variables are a dictionary.

Does **not** own: variables that name entries further inside.
-/

set_option autoImplicit false

namespace Provenance

open Data (Scalar Value Entries Shared Cells)
open World (Environment)

/-! ## Variables taken from an environment -/

namespace World.Environment

variable {environment : Environment} {name other : String}

theorem unset_cons_self (text : String) :
    unset ((name, text) :: environment) name = unset environment name := by
  simp [unset]

theorem unset_cons_of_ne (different : other ≠ name) (text : String) :
    unset ((other, text) :: environment) name = (other, text) :: unset environment name := by
  simp [unset, different]

theorem get?_unset_self : get? (unset environment name) name = none := by
  induction environment with
  | nil => rfl
  | cons entry rest inductionHypothesis =>
      obtain ⟨found, text⟩ := entry
      by_cases same : found = name
      · subst same
        rw [unset_cons_self, inductionHypothesis]
      · rw [unset_cons_of_ne same, get?, List.lookup_cons, beq_false_of_ne (Ne.symm same)]
        exact inductionHypothesis

theorem get?_unset_of_ne (different : other ≠ name) :
    get? (unset environment name) other = get? environment other := by
  induction environment with
  | nil => rfl
  | cons entry rest inductionHypothesis =>
      obtain ⟨found, text⟩ := entry
      by_cases same : found = name
      · subst same
        rw [unset_cons_self, inductionHypothesis, get?, get?, List.lookup_cons,
          beq_false_of_ne different]
      · rw [unset_cons_of_ne same, get?, get?, List.lookup_cons, List.lookup_cons]
        exact congrArg (fun rest => bif other == found then some text else rest) inductionHypothesis

theorem mem_of_get? {text : String} (isSet : get? environment name = some text) :
    (name, text) ∈ environment := by
  obtain ⟨before, after, rfl, -⟩ := List.lookup_eq_some_iff.mp isSet
  exact List.mem_append_right _ List.mem_cons_self

end World.Environment

/-! ## Keys at the top -/

theorem Data.Entries.keys_insert {entries : Entries} {key : String} {value : Value}
    (isThere : Entries.get? entries key = some value) (new : Value) :
    Entries.keys (Entries.insert (.text key) new entries) = Entries.keys entries := by
  obtain ⟨before, after, rfl, absent⟩ := Entries.exists_split_of_get? isThere
  rw [Entries.insert_split absent]
  simp [Entries.keys]

namespace Settings

variable {settings after : Shared} {entries : Entries} {cells : Cells} {key : String}
  {wanted : List String} {environment : Environment}

/-- Settings whose keys are texts, none of them this one. -/
def Lacks (key : String) (settings : Shared) : Prop :=
  ∃ entries, settings.root = .dict entries ∧
    ∀ found ∈ Entries.keys entries, ∃ name, found = .text name ∧ name ≠ key

theorem not_mem_texts (others : ∀ found ∈ Entries.keys entries, ∃ name, found = .text name ∧ name ≠ key) :
    key ∉ Entries.texts entries := by
  intro member
  obtain ⟨⟨found, value⟩, isEntry, isText⟩ := List.mem_filterMap.mp member
  obtain ⟨name, rfl, different⟩ := others found (List.mem_map_of_mem isEntry)
  exact different (Option.some.inj isText)

/-- A walk that changes the dictionary that it begins at gives it no new keys. -/
theorem keys_of_assignWithin (texts : ∀ key ∈ Entries.keys entries, ∃ name, key = Scalar.text name)
    {value : Value} {levels : Nat} {change : Change}
    (walks : assignWithin cells value levels wanted entries = .ok (some change))
    (own : change.cell = none) : Entries.keys change.entries = Entries.keys entries := by
  cases levels with
  | zero => cases walks
  | succ levels =>
      cases found : bestKey? wanted (Entries.texts entries) with
      | none =>
          rw [assignWithin_of_none texts _ found] at walks
          cases walks
      | some chosen =>
          obtain ⟨chosenKey, count⟩ := chosen
          obtain ⟨part, isThere⟩ := Entries.mem_texts_iff.mp (bestKey?_eq_some found).1.1
          rw [assignWithin] at walks
          simp only [textKeys_eq texts, found, isThere] at walks
          split at walks
          · obtain rfl := Option.some.inj (Except.ok.inj walks)
            exact Entries.keys_insert isThere _
          split at walks
          · obtain ⟨inner, -, mapped⟩ := exists_of_map_eq_ok walks
            obtain ⟨before, -, rfl⟩ := Option.map_eq_some_iff.mp mapped
            unfold Change.outside at own ⊢
            split at own
            · next cell isCell =>
                rw [isCell] at own
                cases own
            · exact Entries.keys_insert isThere _
          · split at walks
            · obtain ⟨inner, -, mapped⟩ := exists_of_map_eq_ok walks
              obtain ⟨before, -, rfl⟩ := Option.map_eq_some_iff.mp mapped
              unfold Change.atCell at own
              split at own
              · next cell isCell =>
                  rw [isCell] at own
                  cases own
              · cases own
            · cases walks
          · cases walks

/-- **No variable adds a key at the top.** -/
theorem Lacks.assigned {value : Value} (lacks : Lacks key settings)
    (assigns : assigned settings wanted value = .ok after) : Lacks key after := by
  obtain ⟨entries, isDict, others⟩ := lacks
  have texts : ∀ found ∈ Entries.keys entries, ∃ name, found = Scalar.text name :=
    fun found member => (others found member).imp fun _ isText => isText.1
  unfold Settings.assigned at assigns
  rw [isDict] at assigns
  obtain ⟨change, walks, rfl⟩ := exists_of_map_eq_ok assigns
  cases change with
  | none => exact ⟨entries, isDict, others⟩
  | some change =>
      simp only [Option.map_some, Option.getD_some, Change.apply]
      cases own : change.cell with
      | some cell => exact ⟨entries, isDict, others⟩
      | none =>
          refine ⟨change.entries, rfl, ?_⟩
          rwa [keys_of_assignWithin texts walks own]

/-- A part that is no key names nothing. -/
theorem Lacks.assigned_eq (lacks : Lacks key settings) (whole : parts key = [key]) (value : Value) :
    Settings.assigned settings [key] value = .ok settings := by
  obtain ⟨entries, isDict, others⟩ := lacks
  have texts : ∀ found ∈ Entries.keys entries, ∃ name, found = Scalar.text name :=
    fun found member => (others found member).imp fun _ isText => isText.1
  have noKey : bestKey? [key] (Entries.texts entries) = none := by
    cases found : bestKey? [key] (Entries.texts entries) with
    | none => rfl
    | some chosen =>
        obtain ⟨chosenKey, count⟩ := chosen
        obtain ⟨member, -, starts, -⟩ := (bestKey?_eq_some found).1
        have same : parts chosenKey = parts key := by
          rw [whole]
          exact starts.eq_of_length (Nat.le_antisymm starts.length_le (length_parts_pos chosenKey))
        exact absurd (parts_injective same ▸ member) (not_mem_texts others)
  unfold Settings.assigned
  rw [isDict]
  simp only [List.length_singleton, assignWithin_of_none texts value noKey]
  rfl

/-- **A variable that names no key may be taken from the environment**, if it has a value. -/
theorem override_unset {name : String} (names : variableParts? name = some [key])
    (whole : parts key = [key]) (lacks : Lacks key settings)
    (coerces : ∀ text, (name, text) ∈ environment → ∃ value, coerce text = .ok value) :
    override (environment.unset name) settings = override environment settings := by
  induction environment generalizing settings with
  | nil => rfl
  | cons entry rest inductionHypothesis =>
      obtain ⟨other, text⟩ := entry
      have coercesRest : ∀ text, (name, text) ∈ rest → ∃ value, coerce text = .ok value :=
        fun text member => coerces text (List.mem_cons_of_mem _ member)
      by_cases same : other = name
      · subst same
        obtain ⟨value, coerced⟩ := coerces text List.mem_cons_self
        rw [World.Environment.unset_cons_self, inductionHypothesis lacks coercesRest]
        have first : assignments ((other, text) :: rest) = ([key], text) :: assignments rest := by
          simp only [assignments, List.filterMap_cons, names, Option.map_some]
        rw [override, override, first, overrideAll, overrideOne, coerced]
        simp only [lacks.assigned_eq whole]
      · rw [World.Environment.unset_cons_of_ne same]
        cases named : variableParts? other with
        | none =>
            have first (environment : Environment) :
                assignments ((other, text) :: environment) = assignments environment := by
              simp only [assignments, List.filterMap_cons, named, Option.map_none]
            rw [override, override, first, first]
            exact inductionHypothesis lacks coercesRest
        | some wanted =>
            have first (environment : Environment) : assignments ((other, text) :: environment) =
                (wanted, text) :: assignments environment := by
              simp only [assignments, List.filterMap_cons, named, Option.map_some]
            rw [override, override, first, first, overrideAll, overrideAll]
            cases sets : overrideOne settings wanted text with
            | error fault => rfl
            | ok next =>
                refine inductionHypothesis ?_ coercesRest
                unfold overrideOne at sets
                split at sets
                · cases sets
                · exact lacks.assigned sets

/-! ## The settings under the variables -/

/-- The settings under the variables are a dictionary, whatever the file holds. -/
theorem exists_dict_of_underlying {Time : Type} {world reached : World Time}
    (returns : underlying.runIn world = (.ok settings, reached)) :
    ∃ entries, settings.root = .dict entries := by
  have ofDefaults : ∃ entries, (Shared.plain defaults).root = .dict entries := ⟨_, rfl⟩
  obtain ⟨path, _, -, rest⟩ := Program.exists_of_bind_eq_ok returns
  obtain ⟨isThere, _, -, rest⟩ := Program.exists_of_bind_eq_ok rest
  cases isThere with
  | false =>
      obtain rfl := Except.ok.inj (congrArg Prod.fst rest)
      exact ofDefaults
  | true =>
      obtain ⟨result, before, attempts, rest⟩ := Program.exists_of_bind_eq_ok rest
      cases result with
      | ok merged =>
          obtain rfl := Except.ok.inj (congrArg Prod.fst rest)
          rw [Program.runIn_attempt] at attempts
          obtain ⟨file, _, -, merges⟩ := Program.exists_of_bind_eq_ok
            (Prod.ext (Except.ok.inj (congrArg Prod.fst attempts)) rfl)
          exact (mergeShared_eq_ok (Program.eq_ok_of_ofFault merges).1).2
      | error failure =>
          dsimp only at rest
          split at rest
          · obtain ⟨_, _, -, rest⟩ := Program.exists_of_bind_eq_ok rest
            obtain rfl := Except.ok.inj (congrArg Prod.fst rest)
            exact ofDefaults
          · cases congrArg Prod.fst rest

end Settings
end Provenance
