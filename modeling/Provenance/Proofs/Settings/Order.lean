import Provenance.Proofs.Settings.Walk
import Provenance.Settings.Defaults

/-!
Contract: the order in which variables are taken.

Owns:
- `suffix?`, what a variable's name says of the setting that it names;
- `override_perm`: the order does not matter where no dictionary is shared.

Does **not** own: which setting a variable replaces.

## Shared dictionaries

A dictionary that stands at two places is changed at both by a variable that names an
entry at either.  So of two variables that name the same entry there, each by its own
place, the later one wins.
-/

set_option autoImplicit false

namespace Provenance.Settings

open Data (Scalar Value Entries Shared)
open World (Environment)

/-- What follows the start of a variable's name, in lower case, if the variable names a setting. -/
def suffix? (name : String) : Option String :=
  if Text.startsWith variableStart name && name ≠ fileVariable then
    some (Text.lower (String.ofList (name.toList.drop variableStart.length)))
  else
    none

/-- The suffixes of all variables that name settings. -/
def suffixes (environment : Environment) : List String :=
  environment.filterMap fun (name, _) => suffix? name

/-- Every variable that names a setting has a text that stands for a value. -/
def Coercible (environment : Environment) : Prop :=
  ∀ name text, (name, text) ∈ environment → (suffix? name).isSome →
    ∃ value, coerce text = .ok value

variable {environment other : Environment} {settings : Shared}

theorem variableParts?_eq (name : String) : variableParts? name = (suffix? name).map parts := by
  unfold variableParts? suffix?
  split <;> rfl

theorem map_fst_assignments (environment : Environment) :
    (assignments environment).map Prod.fst = (suffixes environment).map parts := by
  unfold assignments suffixes
  rw [List.map_filterMap, List.map_filterMap]
  refine List.filterMap_congr fun (name, text) _ => ?_
  simp only [variableParts?_eq]
  cases suffix? name <;> rfl

theorem coercible_assignments (coercible : Coercible environment) :
    ∀ assignment ∈ assignments environment, ∃ value, coerce assignment.2 = .ok value := by
  intro assignment member
  obtain ⟨⟨name, text⟩, isVariable, isAssignment⟩ := List.mem_filterMap.mp member
  simp only [variableParts?_eq] at isAssignment
  cases suffix : suffix? name with
  | none =>
      rw [suffix] at isAssignment
      cases isAssignment
  | some found =>
      rw [suffix] at isAssignment
      obtain rfl := Option.some.inj isAssignment
      exact coercible name text isVariable (by rw [suffix]; rfl)

/-- The variables of an environment, each with its parts and the scalar that it stands for. -/
def overrides (environment : Environment) : List (List String × Scalar) :=
  overridesOf (assignments environment)

theorem map_fst_overrides (coercible : Coercible environment) :
    (overrides environment).map Prod.fst = (suffixes environment).map parts := by
  rw [overrides, map_fst_overridesOf (coercible_assignments coercible), map_fst_assignments]

theorem nodup_overrides (coercible : Coercible environment)
    (distinct : (suffixes environment).Nodup) : ((overrides environment).map Prod.fst).Nodup := by
  rw [map_fst_overrides coercible]
  exact distinct.map fun _ _ same => parts_injective same

/-- Nested settings become what their tree becomes. -/
theorem override_value (nested : settings.IsNested) (coercible : Coercible environment) :
    ∃ after, override environment settings = .ok after ∧ after.IsNested ∧
      after.value = replacedAll settings.value (overrides environment) :=
  overrideAll_value nested (coercible_assignments coercible)

/-- **The order of the environment does not matter**: where the variables differ in what they name
and all of them have values, every order of them makes the same of nested settings, down to the
order of the keys. -/
theorem override_perm (environment other : Environment) (settings : Shared)
    (nested : settings.IsNested) (reordered : environment.Perm other)
    (distinct : (suffixes environment).Nodup) (coercible : Coercible environment) :
    ∃ first second, override environment settings = .ok first ∧
      override other settings = .ok second ∧ first.value = second.value := by
  have coercibleOther : Coercible other := fun name text member =>
    coercible name text (reordered.mem_iff.mpr member)
  obtain ⟨first, overridden, -, first_value⟩ := override_value nested coercible
  obtain ⟨second, overriddenOther, -, second_value⟩ := override_value nested coercibleOther
  refine ⟨first, second, overridden, overriddenOther, ?_⟩
  rw [first_value, second_value]
  exact replacedAll_perm ((reordered.filterMap _).filterMap _) (nodup_overrides coercible distinct) _

theorem isNested_defaults : (Shared.plain defaults).IsNested :=
  Shared.isNested_plain
    (Data.Cells.textKeyed_of_isKeyed (by decide) fun _ member => by simp at member)

/-- A variable for a whole section and one for an entry of it, in either order. -/
theorem override_perm_section :
    ∃ first second,
      override [("GITMETA_GIT", "off"), ("GITMETA_GIT_BINARY", "hub")] (.plain defaults) =
          .ok first ∧
        override [("GITMETA_GIT_BINARY", "hub"), ("GITMETA_GIT", "off")] (.plain defaults) =
          .ok second ∧
        first.value = second.value := by
  refine override_perm _ _ _ isNested_defaults (.swap _ _ _) (by decide) ?_
  intro name text member names
  rcases List.mem_cons.mp member with isFirst | later
  · cases isFirst
    exact ⟨.bool false, rfl⟩
  · cases List.mem_singleton.mp later
    exact ⟨.text "hub", rfl⟩

/-- Settings in which one dictionary stands under two keys. -/
def twice : Shared where
  root := .dict [(.text "a", .link 0 .dict), (.text "b", .link 0 .dict)]
  cells := #[.dict [(.text "k", .int 0)]]

/-- Where a dictionary is shared, the later one of two variables wins at both of its places. -/
theorem not_override_perm_twice :
    ¬ ∀ (environment other : Environment) (settings : Shared),
      (∃ entries, settings.root = .dict entries) → settings.cells.HoldsCollections →
        settings.cells.TextKeyed settings.root → environment.Perm other →
          (suffixes environment).Nodup → Coercible environment →
            ∃ first second, override environment settings = .ok first ∧
              override other settings = .ok second ∧ first.value = second.value := by
  intro law
  have collections : twice.cells.HoldsCollections := by
    intro cell other kind holds
    rcases cell with - | cell
    · cases holds
    · cases holds
  have textKeyed : twice.cells.TextKeyed twice.root :=
    Data.Cells.textKeyed_of_isKeyed rfl fun content member => by
      rw [Array.mem_singleton.mp member]
      rfl
  have coercible : Coercible [("GITMETA_A_K", "1"), ("GITMETA_B_K", "2")] := by
    intro name text member names
    rcases List.mem_cons.mp member with isFirst | later
    · cases isFirst
      exact ⟨.int 1, rfl⟩
    · cases List.mem_singleton.mp later
      exact ⟨.int 2, rfl⟩
  obtain ⟨first, second, overridden, overriddenOther, same⟩ :=
    law [("GITMETA_A_K", "1"), ("GITMETA_B_K", "2")] [("GITMETA_B_K", "2"), ("GITMETA_A_K", "1")]
      twice ⟨_, rfl⟩ collections textKeyed (.swap _ _ _) (by decide) coercible
  have first_value : (override [("GITMETA_A_K", "1"), ("GITMETA_B_K", "2")] twice).map
      Shared.value = .ok (.record [("a", .record [("k", .int 2)]), ("b", .record [("k", .int 2)])]) :=
    rfl
  have second_value : (override [("GITMETA_B_K", "2"), ("GITMETA_A_K", "1")] twice).map
      Shared.value = .ok (.record [("a", .record [("k", .int 1)]), ("b", .record [("k", .int 1)])]) :=
    rfl
  rw [overridden] at first_value
  rw [overriddenOther] at second_value
  have equal := (Except.ok.inj first_value).symm.trans (same.trans (Except.ok.inj second_value))
  simp [Value.record] at equal

end Provenance.Settings
