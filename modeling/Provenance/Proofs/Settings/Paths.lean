import Provenance.Proofs.Data.Leaves
import Provenance.Proofs.Settings.Order
import Provenance.Proofs.Text.Cut

/-!
Contract: the entries at the paths of a tree, before and after variables.

Owns:
- `joined`, the suffix that names a path of keys;
- `IsWellKeyed`, trees in which a suffix names one path at most;
- what variables leave at a path: `entryAt?_replacedAll` and `entryAt?_replacedAll_of_named`;
- `replacedAll_of_sublist`: variables that name no path do nothing.

Does **not** own: files and defaults.
-/

set_option autoImplicit false

namespace Provenance

open Data (Scalar Value Entries)

/-! ## Paths -/

namespace Data

/-- What is at a path of a narrowed value was wider there before. -/
theorem Value.Narrowed.entryAt? {value value' found : Value} {path : List String}
    (narrowed : value.Narrowed value') (isThere : value'.entryAt? path = some found) :
    ∃ wide, value.entryAt? path = some wide ∧ wide.Narrowed found := by
  induction path generalizing value value' with
  | nil =>
      obtain rfl := Option.some.inj isThere
      exact ⟨value, rfl, narrowed⟩
  | cons key rest inductionHypothesis =>
      rw [Value.entryAt?, Option.bind_eq_some_iff] at isThere
      obtain ⟨part, isEntry, behind⟩ := isThere
      obtain ⟨widePart, isEntryWide, parts⟩ := narrowed.entry? isEntry
      obtain ⟨wide, isThereWide, wider⟩ := inductionHypothesis parts behind
      exact ⟨wide, by rw [Value.entryAt?, isEntryWide, Option.bind_some, isThereWide], wider⟩

end Data

namespace Settings

/-! ## The suffix of a path -/

/-- The suffix that names a path: its keys with underscores between them. -/
def joined (path : List String) : String :=
  String.ofList (Text.joinWith '_' (path.map String.toList))

theorem parts_joined {path : List String} (given : path ≠ []) :
    parts (joined path) = path.flatMap parts := by
  have pieces : ∀ path : List String, path ≠ [] →
      Text.split '_' (Text.joinWith '_' (path.map String.toList)) =
        path.flatMap fun key => Text.split '_' key.toList := by
    intro path given
    induction path with
    | nil => exact absurd rfl given
    | cons key rest inductionHypothesis =>
        cases rest with
        | nil => simp [Text.joinWith]
        | cons next others =>
            have joins : Text.joinWith '_' ((key :: next :: others).map String.toList) =
                key.toList ++ '_' :: Text.joinWith '_' ((next :: others).map String.toList) := rfl
            rw [joins, Text.split_append_cons, inductionHypothesis (List.cons_ne_nil _ _)]
            rfl
  unfold parts Text.splitText joined
  rw [String.toList_ofList, pieces path given, List.map_flatMap]

/-- A suffix names a path just where its parts are the parts of the keys. -/
theorem eq_joined_iff {suffix : String} {path : List String} (given : path ≠ []) :
    suffix = joined path ↔ parts suffix = path.flatMap parts := by
  rw [← parts_joined given]
  exact ⟨fun same => by rw [same], fun same => parts_injective same⟩

/-! ## One variable -/

variable {value old found : Value} {path wanted : List String} {new : Scalar} {levels : Nat}
  {entries : Entries} {key : String} {count : Nat}

/-- Some parts name a path or lead through it. -/
def Covers (wanted path : List String) : Prop :=
  ∃ start, start <+: path ∧ start ≠ [] ∧ wanted = start.flatMap parts

theorem covers_cons {rest : List String} (behind : wanted.drop (parts key).length =
    List.flatMap parts rest) (starts : parts key <+: wanted) :
    wanted = (key :: rest).flatMap parts := by
  rw [List.flatMap_cons, ← behind]
  exact List.prefix_append_drop starts

/-- An entry stays there, and if it is no dictionary stays what it is, unless the parts name it or
something around it, which then is the scalar. -/
theorem entryAt?_replaced (isThere : value.entryAt? path = some old) :
    (∃ now, (replaced new levels wanted value).entryAt? path = some now ∧
      ((∀ entries, old ≠ .dict entries) → now = old)) ∨
    ∃ start, start <+: path ∧ start ≠ [] ∧ wanted = start.flatMap parts ∧
      (replaced new levels wanted value).entryAt? start = some (.scalar new) := by
  induction path generalizing value wanted levels with
  | nil =>
      obtain rfl := Option.some.inj isThere
      exact .inl ⟨_, rfl, fun unlike => replaced_of_ne_dict unlike⟩
  | cons key rest inductionHypothesis =>
      obtain ⟨entries, part, rfl, isEntry, behind⟩ := Data.Value.entryAt?_cons.mp isThere
      cases levels with
      | zero => exact .inl ⟨old, isThere, fun _ => rfl⟩
      | succ levels =>
          cases found : bestKey? wanted (Entries.texts entries) with
          | none => exact .inl ⟨old, by rw [replaced_of_none found, isThere], fun _ => rfl⟩
          | some chosen =>
              obtain ⟨best, count⟩ := chosen
              rw [replaced_of_some found]
              by_cases sameKey : key = best
              · subst sameKey
                obtain ⟨-, rfl, starts, -⟩ := (bestKey?_eq_some found).1
                have isEntryNow : Entries.get? (Entries.alter key
                    (replacedUnder new levels wanted (parts key).length) entries) key =
                      some (replacedUnder new levels wanted (parts key).length part) := by
                  rw [Entries.get?_alter_self, isEntry, Option.map_some]
                by_cases ends : (parts key).length = wanted.length
                · refine .inr ⟨[key], List.prefix_append [key] rest, List.cons_ne_nil _ _, ?_,
                    Data.Value.entryAt?_cons.mpr ⟨_, _, rfl, isEntryNow, ?_⟩⟩
                  · rw [List.flatMap_singleton]
                    exact (starts.eq_of_length ends).symm
                  · rw [replacedUnder, if_pos ends]
                    rfl
                · have goesOn : replacedUnder new levels wanted (parts key).length part =
                      replaced new levels (wanted.drop (parts key).length) part := by
                    rw [replacedUnder, if_neg ends]
                  rw [goesOn] at isEntryNow
                  rcases inductionHypothesis behind with
                    ⟨now, isThereNow, kept⟩ | ⟨start, isStart, -, names, isScalar⟩
                  · exact .inl ⟨now,
                      Data.Value.entryAt?_cons.mpr ⟨_, _, rfl, isEntryNow, isThereNow⟩, kept⟩
                  · exact .inr ⟨key :: start, List.cons_prefix_cons.mpr ⟨rfl, isStart⟩,
                      List.cons_ne_nil _ _, covers_cons names starts,
                      Data.Value.entryAt?_cons.mpr ⟨_, _, rfl, isEntryNow, isScalar⟩⟩
              · refine .inl ⟨old, Data.Value.entryAt?_cons.mpr ⟨_, part, rfl, ?_, behind⟩,
                  fun _ => rfl⟩
                rw [Entries.get?_alter_of_ne sameKey, isEntry]

/-- Parts that name no path of a tree leave it alone. -/
theorem replaced_of_unnamed
    (unnamed : ∀ path found, path ≠ [] → value.entryAt? path = some found →
      wanted ≠ path.flatMap parts) :
    replaced new levels wanted value = value := by
  induction levels generalizing wanted value with
  | zero => rfl
  | succ levels inductionHypothesis =>
      cases value with
      | dict entries =>
          cases found : bestKey? wanted (Entries.texts entries) with
          | none => exact replaced_of_none found
          | some chosen =>
              obtain ⟨key, count⟩ := chosen
              obtain ⟨member, rfl, starts, -⟩ := (bestKey?_eq_some found).1
              obtain ⟨part, isEntry⟩ := Entries.mem_texts_iff.mp member
              have goesOn : (parts key).length ≠ wanted.length := by
                intro ends
                refine unnamed [key] part (by simp)
                  (Data.Value.entryAt?_cons.mpr ⟨entries, part, rfl, isEntry, rfl⟩) ?_
                rw [List.flatMap_singleton]
                exact (starts.eq_of_length ends).symm
              rw [replaced_of_some found, Entries.alter_eq_self]
              intro other isEntryToo
              rw [isEntry] at isEntryToo
              obtain rfl := Option.some.inj isEntryToo
              rw [replacedUnder, if_neg goesOn]
              refine inductionHypothesis fun path inner nonempty isThere same => ?_
              exact unnamed (key :: path) inner (List.cons_ne_nil _ _)
                (Data.Value.entryAt?_cons.mpr ⟨entries, part, rfl, isEntry, isThere⟩)
                (covers_cons same starts)
      | _ => rfl

/-- A tree in which no key is empty and no key's parts are the beginning of those of another key
beside it. -/
def IsWellKeyed (value : Value) : Prop :=
  ∀ path entries, value.entryAt? path = some (.dict entries) →
    ∀ key ∈ Entries.texts entries, key ≠ "" ∧
      ∀ other ∈ Entries.texts entries, parts key <+: parts other → key = other

theorem IsWellKeyed.part (wellKeyed : IsWellKeyed (.dict entries)) {part : Value}
    (isEntry : Entries.get? entries key = some part) : IsWellKeyed part := by
  intro path inner isThere
  exact wellKeyed (key :: path) inner
    (Data.Value.entryAt?_cons.mpr ⟨entries, part, rfl, isEntry, isThere⟩)

theorem IsWellKeyed.narrowed {value' : Value} (wellKeyed : IsWellKeyed value)
    (narrowed : value.Narrowed value') : IsWellKeyed value' := by
  intro path entries isThere
  obtain ⟨wide, isThereWide, wider⟩ := narrowed.entryAt? isThere
  obtain ⟨wideEntries, rfl, keys_eq⟩ := wider.of_dict
  have texts_eq : Entries.texts wideEntries = Entries.texts entries :=
    Entries.texts_congr keys_eq
  rw [← texts_eq]
  exact wellKeyed path wideEntries isThereWide

mutual

/-- Whether in all dictionaries of a tree no key is empty or begins another. -/
def keysAreApart : Value → Bool
  | .dict entries =>
    (Entries.texts entries).all (fun key => key ≠ "" ∧
      ∀ other ∈ Entries.texts entries, parts key <+: parts other → key = other) &&
        entriesAreApart entries
  | _ => true

def entriesAreApart : List (Scalar × Value) → Bool
  | [] => true
  | (_, value) :: rest => keysAreApart value && entriesAreApart rest

end

theorem keysAreApart_of_mem {scalar : Scalar} {part : Value} (apart : entriesAreApart entries)
    (member : (scalar, part) ∈ entries) : keysAreApart part := by
  induction entries with
  | nil => cases member
  | cons entry rest inductionHypothesis =>
      rw [entriesAreApart, Bool.and_eq_true] at apart
      rcases List.mem_cons.mp member with rfl | later
      · exact apart.1
      · exact inductionHypothesis apart.2 later

theorem isWellKeyed_of_keysAreApart (apart : keysAreApart value) : IsWellKeyed value := by
  intro path entries isThere
  induction path generalizing value with
  | nil =>
      obtain rfl := Option.some.inj isThere
      rw [keysAreApart, Bool.and_eq_true] at apart
      intro key member
      exact of_decide_eq_true (List.all_eq_true.mp apart.1 key member)
  | cons key rest inductionHypothesis =>
      obtain ⟨around, part, rfl, isEntry, behind⟩ := Data.Value.entryAt?_cons.mp isThere
      rw [keysAreApart, Bool.and_eq_true] at apart
      obtain ⟨before, after, rfl, -⟩ := Entries.exists_split_of_get? isEntry
      exact inductionHypothesis
        (keysAreApart_of_mem apart.2 (List.mem_append_right before List.mem_cons_self)) behind

/-- In a well-keyed tree the walk for a path's own parts goes along the path. -/
theorem entryAt?_replaced_of_named (wellKeyed : IsWellKeyed value)
    (isThere : value.entryAt? path = some old) (given : path ≠ [])
    (named : wanted = path.flatMap parts) (enough : wanted.length ≤ levels) :
    (replaced new levels wanted value).entryAt? path = some (.scalar new) := by
  induction path generalizing value wanted levels with
  | nil => exact absurd rfl given
  | cons key rest inductionHypothesis =>
      obtain ⟨entries, part, rfl, isEntry, behind⟩ := Data.Value.entryAt?_cons.mp isThere
      rw [List.flatMap_cons] at named
      have keyLong := length_parts_pos key
      have length_eq : wanted.length = (parts key).length + (rest.flatMap parts).length := by
        rw [named, List.length_append]
      obtain ⟨levels, rfl⟩ : ∃ fewer, levels = fewer + 1 := ⟨levels - 1, by omega⟩
      have starts : parts key <+: wanted := by
        rw [named]
        exact List.prefix_append _ _
      have member : key ∈ Entries.texts entries := Entries.mem_texts_iff.mpr ⟨part, isEntry⟩
      have unique : ∀ other ∈ Entries.texts entries, parts other <+: wanted → other = key := by
        intro other otherMember otherStarts
        rcases List.prefix_or_prefix_of_prefix otherStarts starts with shorter | longer
        · exact (wellKeyed [] entries rfl other otherMember).2 key member shorter
        · exact ((wellKeyed [] entries rfl key member).2 other otherMember longer).symm
      have found := bestKey?_eq_of_unique member starts (wellKeyed [] entries rfl key member).1 unique
      rw [replaced_of_some found]
      cases rest with
      | nil =>
          have ends : (parts key).length = wanted.length := by simpa using length_eq.symm
          refine Data.Value.entryAt?_cons.mpr ⟨_, .scalar new, rfl, ?_, rfl⟩
          rw [Entries.get?_alter_self, isEntry, Option.map_some, replacedUnder, if_pos ends]
      | cons next others =>
          have nextLong := length_parts_pos next
          have longer : 0 < ((next :: others).flatMap parts).length := by
            rw [List.flatMap_cons, List.length_append]
            omega
          have goesOn : (parts key).length ≠ wanted.length := by omega
          have rest_eq : wanted.drop (parts key).length = (next :: others).flatMap parts := by
            rw [named, List.drop_left]
          have reached := inductionHypothesis (wellKeyed.part isEntry) behind
            (List.cons_ne_nil _ _) rest_eq
            (show (wanted.drop (parts key).length).length ≤ levels by rw [List.length_drop]; omega)
          refine Data.Value.entryAt?_cons.mpr ⟨_, _, rfl, ?_, reached⟩
          rw [Entries.get?_alter_self, isEntry, Option.map_some, replacedUnder, if_neg goesOn]

/-! ## All variables -/

variable {overrides overrides' : List (List String × Scalar)}

theorem IsWellKeyed.replacedAll (wellKeyed : IsWellKeyed value)
    (overrides : List (List String × Scalar)) : IsWellKeyed (replacedAll value overrides) := by
  induction overrides generalizing value with
  | nil => exact wellKeyed
  | cons override rest inductionHypothesis =>
      exact inductionHypothesis (wellKeyed.narrowed (narrowed_replaced _ _ _ _))

/-- An entry stays there, and if it is no dictionary stays what it is, unless a variable names it or
something around it, which then is the scalar of such a variable. -/
theorem entryAt?_replacedAll (isThere : value.entryAt? path = some old) :
    (∃ now, (replacedAll value overrides).entryAt? path = some now ∧
      ((∀ entries, old ≠ .dict entries) → now = old)) ∨
    ∃ start new, start <+: path ∧ start ≠ [] ∧ (start.flatMap parts, new) ∈ overrides ∧
      (replacedAll value overrides).entryAt? start = some (.scalar new) := by
  induction overrides generalizing value path old with
  | nil => exact .inl ⟨old, isThere, fun _ => rfl⟩
  | cons override rest inductionHypothesis =>
      rw [replacedAll_cons]
      rcases @entryAt?_replaced _ _ _ override.1 override.2 override.1.length isThere with
        ⟨next, isThereNext, keptNext⟩ | ⟨start, isStart, given, names, isScalar⟩
      · rcases inductionHypothesis isThereNext with
          ⟨now, isThereNow, keptNow⟩ | ⟨start, new, isStart, given, member, isScalar⟩
        · refine .inl ⟨now, isThereNow, fun unlike => ?_⟩
          obtain rfl := keptNext unlike
          exact keptNow unlike
        · exact .inr ⟨start, new, isStart, given, List.mem_cons_of_mem _ member, isScalar⟩
      · -- The scalar stays there, or one of the other variables names it or something around it.
        rcases inductionHypothesis isScalar with
          ⟨now, isThereNow, kept⟩ | ⟨around, new, isAround, given, member, isScalar⟩
        · rw [kept fun _ equal => nomatch equal] at isThereNow
          exact .inr ⟨start, override.2, isStart, given, by rw [← names]; exact List.mem_cons_self,
            isThereNow⟩
        · exact .inr ⟨around, new, isAround.trans isStart, given, List.mem_cons_of_mem _ member,
            isScalar⟩

/-- Variables that name neither an entry nor anything around it leave it there. -/
theorem entryAt?_replacedAll_of_unnamed (isThere : value.entryAt? path = some old)
    (unnamed : ∀ override ∈ overrides, ¬ Covers override.1 path) :
    ∃ now, (replacedAll value overrides).entryAt? path = some now ∧
      ((∀ entries, old ≠ .dict entries) → now = old) := by
  rcases entryAt?_replacedAll isThere with kept | ⟨start, new, isStart, given, member, -⟩
  · exact kept
  · exact absurd ⟨start, isStart, given, rfl⟩ (unnamed _ member)

/-- A variable that names an entry puts its scalar there, whatever others come before or after it,
unless one of them names something around the entry. -/
theorem entryAt?_replacedAll_of_named (wellKeyed : IsWellKeyed value)
    (distinct : (overrides.map Prod.fst).Nodup) (isThere : value.entryAt? path = some old)
    (given : path ≠ []) (member : (path.flatMap parts, new) ∈ overrides)
    (unnamed : ∀ override ∈ overrides, ∀ start, start <+: path → start ≠ [] → start ≠ path →
      override.1 ≠ start.flatMap parts) :
    (replacedAll value overrides).entryAt? path = some (.scalar new) := by
  obtain ⟨before, after, rfl⟩ := List.append_of_mem member
  -- The variable is taken last, which it may be.
  have last : (before ++ (path.flatMap parts, new) :: after).Perm
      ((before ++ after) ++ [(path.flatMap parts, new)]) :=
    List.perm_middle.trans (List.perm_append_singleton _ _).symm
  have others : ∀ override ∈ before ++ after, ¬ Covers override.1 path := by
    rintro override isOther ⟨start, isStart, nonempty, names⟩
    have isOverride := last.mem_iff.mpr (List.mem_append_left _ isOther)
    by_cases whole : start = path
    · subst whole
      have apart := ((List.perm_middle.map Prod.fst).nodup_iff.mp distinct)
      rw [List.map_cons, List.nodup_cons] at apart
      exact apart.1 (List.mem_map.mpr ⟨override, isOther, names⟩)
    · exact unnamed override isOverride start isStart nonempty whole names
  obtain ⟨now, isThereNow, -⟩ := entryAt?_replacedAll_of_unnamed isThere others
  rw [replacedAll_perm last distinct, Settings.replacedAll, List.foldl_append]
  exact entryAt?_replaced_of_named (wellKeyed.replacedAll _) isThereNow given rfl le_rfl

/-- Variables that name no path of a tree may be left out. -/
theorem replacedAll_of_sublist (fewer : overrides'.Sublist overrides)
    (distinct : (overrides.map Prod.fst).Nodup)
    (named : ∀ override ∈ overrides, ∀ path found, path ≠ [] →
      value.entryAt? path = some found → override.1 = path.flatMap parts →
        override ∈ overrides') :
    replacedAll value overrides' = replacedAll value overrides := by
  induction fewer generalizing value with
  | slnil => rfl
  | @cons overrides' rest override fewer inductionHypothesis =>
      rw [List.map_cons, List.nodup_cons] at distinct
      have dropped : override ∉ overrides' := fun kept =>
        distinct.1 (List.mem_map_of_mem (fewer.mem kept))
      have idle : replaced override.2 override.1.length override.1 value = value :=
        replaced_of_unnamed fun path found given isThere names =>
          dropped (named override List.mem_cons_self path found given isThere names)
      rw [replacedAll_cons, idle]
      exact inductionHypothesis distinct.2 fun other member =>
        named other (List.mem_cons_of_mem _ member)
  | @cons_cons overrides' rest override fewer inductionHypothesis =>
      rw [List.map_cons, List.nodup_cons] at distinct
      refine inductionHypothesis distinct.2 ?_
      intro other member path found given isThere names
      obtain ⟨wide, isThereWide, -⟩ := (narrowed_replaced _ _ _ _).entryAt? isThere
      have kept := named other (List.mem_cons_of_mem _ member) path wide given isThereWide names
      rcases List.mem_cons.mp kept with rfl | later
      · exact absurd (List.mem_map_of_mem member) distinct.1
      · exact later

end Settings
end Provenance
