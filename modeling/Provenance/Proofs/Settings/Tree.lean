import Mathlib.Data.List.Infix
import Mathlib.Data.List.Nodup
import Provenance.Proofs.Data.Nested
import Provenance.Settings.Override

/-!
Contract: variables over settings that are a tree, without cells.

Owns:
- `IsBest` and `bestKey?_eq_some`: which key a level takes;
- `replaced`, a tree with a scalar at the entry that some parts name;
- `replaced_comm`, two variables that name different parts in either order;
- `replacedAll_perm`, any number of them in any order.

Does **not** own: settings whose dictionaries stand in cells.
-/

set_option autoImplicit false

namespace Provenance.Settings

open Data (Scalar Value Entries)

variable {wanted other : List String} {keys : List String} {key : String} {count : Nat}
  {best : Option (String × Nat)} {entries : Entries} {new new' : Scalar} {levels : Nat}
  {value : Value}

/-! ## The key that a level takes -/

theorem parts_ne_nil (text : String) : parts text ≠ [] := by
  intro empty
  exact Text.split_ne_nil '_' text.toList (List.map_eq_nil_iff.mp empty)

theorem length_parts_pos (text : String) : 0 < (parts text).length :=
  List.length_pos_of_ne_nil (parts_ne_nil text)

/-- A text is known by its parts. -/
theorem parts_injective {first second : String} (same : parts first = parts second) :
    first = second := by
  have ofList_injective : Function.Injective String.ofList := fun left right equal => by
    rw [← String.toList_ofList (l := left), equal, String.toList_ofList]
  have pieces := ofList_injective.list_map same
  rw [← String.toList_inj, ← Text.joinWith_split '_' first.toList, pieces, Text.joinWith_split]

/-- What the best of some keys is: none covers the beginning of the parts, or no other covers
more of it. -/
def IsBest (wanted keys : List String) : Option (String × Nat) → Prop
  | none => ∀ other ∈ keys, ¬ parts other <+: wanted
  | some (key, count) => key ∈ keys ∧ count = (parts key).length ∧ parts key <+: wanted ∧
    ∀ other ∈ keys, parts other <+: wanted → (parts other).length ≤ count

theorem isBest_better (isBest : IsBest wanted keys best) (key : String) :
    IsBest wanted (keys ++ [key]) (better wanted best key) := by
  unfold better
  simp only [Bool.and_eq_true, List.isPrefixOf_iff_prefix, decide_eq_true_eq]
  split
  · next covers =>
      obtain ⟨isPrefix, longer⟩ := covers
      refine ⟨by simp, rfl, isPrefix, ?_⟩
      intro other member otherPrefix
      rcases List.mem_append.mp member with earlier | isLast
      · cases best with
        | none => exact absurd otherPrefix (isBest other earlier)
        | some found =>
            have bounded := isBest.2.2.2 other earlier otherPrefix
            exact Nat.le_of_lt (Nat.lt_of_le_of_lt bounded longer)
      · rw [List.mem_singleton.mp isLast]
  · next covers =>
      cases best with
      | none =>
          intro other member otherPrefix
          rcases List.mem_append.mp member with earlier | isLast
          · exact isBest other earlier otherPrefix
          · rw [List.mem_singleton.mp isLast] at otherPrefix
            exact covers ⟨otherPrefix, length_parts_pos key⟩
      | some found =>
          obtain ⟨member, count_eq, isPrefix, longest⟩ := isBest
          refine ⟨List.mem_append_left _ member, count_eq, isPrefix, ?_⟩
          intro other member otherPrefix
          rcases List.mem_append.mp member with earlier | isLast
          · exact longest other earlier otherPrefix
          · rw [List.mem_singleton.mp isLast] at otherPrefix ⊢
            by_contra longer
            exact covers ⟨otherPrefix, Nat.lt_of_not_le longer⟩

theorem isBest_foldl (wanted keys : List String) :
    IsBest wanted keys (keys.foldl (better wanted) none) := by
  induction keys using List.reverseRecOn with
  | nil => exact fun other member => absurd member List.not_mem_nil
  | append_singleton earlier key inductionHypothesis =>
      rw [List.foldl_concat]
      exact isBest_better inductionHypothesis key

theorem bestKey?_eq_some (isBest : bestKey? wanted keys = some (key, count)) :
    IsBest wanted keys (some (key, count)) ∧ key ≠ "" := by
  have folded := isBest_foldl wanted keys
  unfold bestKey? at isBest
  split at isBest
  · next found count' equal =>
      split at isBest
      · cases isBest
      · next nonempty =>
          cases isBest
          rw [equal] at folded
          exact ⟨folded, fun empty => nonempty (by rw [empty]; rfl)⟩
  · cases isBest

/-- A key that covers the beginning of the parts is taken where no other one does. -/
theorem bestKey?_eq_of_unique (member : key ∈ keys) (covers : parts key <+: wanted)
    (nonempty : key ≠ "") (unique : ∀ other ∈ keys, parts other <+: wanted → other = key) :
    bestKey? wanted keys = some (key, (parts key).length) := by
  have folded := isBest_foldl wanted keys
  unfold bestKey?
  cases equal : keys.foldl (better wanted) none with
  | none =>
      rw [equal] at folded
      exact absurd covers (folded key member)
  | some found =>
      obtain ⟨other, count⟩ := found
      rw [equal] at folded
      obtain ⟨otherMember, count_eq, otherCovers, -⟩ := folded
      obtain rfl := unique other otherMember otherCovers
      have named : ¬ other.isEmpty = true := fun empty =>
        nonempty (String.isEmpty_iff.mp empty)
      simp only [if_neg named, count_eq]

/-- Where all keys are texts, they are the keys that a level has to choose from. -/
theorem textKeys_eq (texts : ∀ key ∈ Entries.keys entries, ∃ name, key = Scalar.text name) :
    textKeys entries = .ok (Entries.texts entries) := by
  induction entries with
  | nil => rfl
  | cons entry rest inductionHypothesis =>
      obtain ⟨key, value⟩ := entry
      obtain ⟨name, rfl⟩ := texts key List.mem_cons_self
      rw [textKeys, inductionHypothesis fun other member =>
        texts other (List.mem_cons_of_mem _ member)]
      rfl

/-! ## A tree with one entry replaced -/

/-- The tree with a scalar at the entry that the parts name, if they name one. -/
def replaced (new : Scalar) : Nat → List String → Value → Value
  | levels + 1, wanted, .dict entries =>
    match bestKey? wanted (Entries.texts entries) with
    | none => .dict entries
    | some (key, count) =>
      .dict (Entries.alter key
        (if count = wanted.length then fun _ => .scalar new
          else replaced new levels (wanted.drop count))
        entries)
  | _, _, value => value

/-- What becomes of the value under the key that covers so many parts. -/
def replacedUnder (new : Scalar) (levels : Nat) (wanted : List String) (count : Nat) :
    Value → Value :=
  if count = wanted.length then fun _ => .scalar new else replaced new levels (wanted.drop count)

@[simp] theorem replaced_zero : replaced new 0 wanted value = value := rfl

@[simp] theorem replaced_scalar (scalar : Scalar) :
    replaced new levels wanted (.scalar scalar) = .scalar scalar := by
  cases levels <;> rfl

theorem replaced_of_ne_dict (unlike : ∀ entries, value ≠ .dict entries) :
    replaced new levels wanted value = value := by
  cases levels with
  | zero => rfl
  | succ levels =>
      cases value with
      | dict entries => exact absurd rfl (unlike entries)
      | _ => rfl

theorem replaced_of_none (none : bestKey? wanted (Entries.texts entries) = none) :
    replaced new levels wanted (.dict entries) = .dict entries := by
  cases levels with
  | zero => rfl
  | succ levels =>
      rw [replaced]
      simp only [none]

theorem replaced_of_some (found : bestKey? wanted (Entries.texts entries) = some (key, count)) :
    replaced new (levels + 1) wanted (.dict entries) =
      .dict (Entries.alter key (replacedUnder new levels wanted count) entries) := by
  rw [replaced]
  simp only [found]
  rfl

/-- Only scalars come into a tree, and only in the place of something. -/
theorem narrowed_replaced (new : Scalar) (levels : Nat) (wanted : List String) (value : Value) :
    value.Narrowed (replaced new levels wanted value) := by
  induction levels generalizing wanted value with
  | zero => exact .refl value
  | succ levels inductionHypothesis =>
      cases value with
      | dict entries =>
          cases found : bestKey? wanted (Entries.texts entries) with
          | none =>
              rw [replaced_of_none found]
              exact .refl _
          | some chosen =>
              obtain ⟨key, count⟩ := chosen
              obtain ⟨old, isThere⟩ := Entries.mem_texts_iff.mp (bestKey?_eq_some found).1.1
              obtain ⟨before, after, rfl, absent⟩ := Entries.exists_split_of_get? isThere
              rw [replaced_of_some found, Entries.alter_split absent]
              refine .entry ?_
              unfold replacedUnder
              split
              · exact .scalar old new
              · exact inductionHypothesis (wanted.drop count) old
      | _ => exact .refl _

/-! ## The order of variables -/

/-- Under one key two variables meet again, with what is left of their parts. -/
theorem replacedUnder_comm {levels' : Nat} (covers : parts key <+: wanted)
    (covers' : parts key <+: other) (different : wanted ≠ other)
    (behind : wanted.drop (parts key).length ≠ other.drop (parts key).length →
      replaced new' levels' (other.drop (parts key).length)
          (replaced new levels (wanted.drop (parts key).length) value) =
        replaced new levels (wanted.drop (parts key).length)
          (replaced new' levels' (other.drop (parts key).length) value)) :
    replacedUnder new' levels' other (parts key).length
        (replacedUnder new levels wanted (parts key).length value) =
      replacedUnder new levels wanted (parts key).length
        (replacedUnder new' levels' other (parts key).length value) := by
  unfold replacedUnder
  by_cases ends : (parts key).length = wanted.length
  · by_cases ends' : (parts key).length = other.length
    · exact absurd ((covers.eq_of_length ends).symm.trans (covers'.eq_of_length ends')) different
    · rw [if_pos ends, if_neg ends', replaced_scalar]
  · by_cases ends' : (parts key).length = other.length
    · rw [if_neg ends, if_pos ends', replaced_scalar]
    · rw [if_neg ends, if_neg ends']
      refine behind fun same => different ?_
      rw [List.prefix_append_drop covers, List.prefix_append_drop covers', same]

/-- **Two variables with different parts may be taken in either order**, also if one names a
dictionary and the other an entry of it. -/
theorem replaced_comm (different : wanted ≠ other) (levels levels' : Nat) (value : Value) :
    replaced new' levels' other (replaced new levels wanted value) =
      replaced new levels wanted (replaced new' levels' other value) := by
  induction levels generalizing levels' wanted other value with
  | zero => rfl
  | succ levels inductionHypothesis =>
      cases levels' with
      | zero => rfl
      | succ levels' =>
          cases value with
          | dict entries =>
              cases first : bestKey? wanted (Entries.texts entries) with
              | none =>
                  rw [replaced_of_none first]
                  cases second : bestKey? other (Entries.texts entries) with
                  | none => rw [replaced_of_none second, replaced_of_none first]
                  | some chosen =>
                      rw [replaced_of_some second,
                        replaced_of_none (by rw [Entries.texts_alter, first])]
              | some chosen =>
                  obtain ⟨key, count⟩ := chosen
                  rw [replaced_of_some first]
                  cases second : bestKey? other (Entries.texts entries) with
                  | none =>
                      rw [replaced_of_none second, replaced_of_some first,
                        replaced_of_none (by rw [Entries.texts_alter, second])]
                  | some chosen' =>
                      obtain ⟨key', count'⟩ := chosen'
                      rw [replaced_of_some (by rw [Entries.texts_alter, second]),
                        replaced_of_some second,
                        replaced_of_some (by rw [Entries.texts_alter, first])]
                      by_cases sameKey : key' = key
                      · subst sameKey
                        rw [Entries.alter_alter_self, Entries.alter_alter_self]
                        obtain ⟨-, rfl, covers, -⟩ := (bestKey?_eq_some first).1
                        obtain ⟨-, rfl, covers', -⟩ := (bestKey?_eq_some second).1
                        congr 2
                        funext old
                        exact replacedUnder_comm covers covers' different
                          fun rest => inductionHypothesis rest levels' old
                      · rw [Entries.alter_comm (Ne.symm sameKey)]
          | _ => rfl

/-- The tree with all variables taken in their order, each with its parts and its scalar. -/
def replacedAll (value : Value) (overrides : List (List String × Scalar)) : Value :=
  overrides.foldl (fun tree (wanted, new) => replaced new wanted.length wanted tree) value

theorem replacedAll_cons (override : List String × Scalar) (rest : List (List String × Scalar)) :
    replacedAll value (override :: rest) =
      replacedAll (replaced override.2 override.1.length override.1 value) rest := rfl

theorem replacedAll_perm {overrides overrides' : List (List String × Scalar)}
    (reordered : overrides.Perm overrides') (distinct : (overrides.map Prod.fst).Nodup)
    (value : Value) : replacedAll value overrides = replacedAll value overrides' := by
  refine reordered.foldl_eq' ?_ value
  intro first member second memberToo tree
  by_cases same : first.1 = second.1
  · rw [List.inj_on_of_nodup_map distinct member memberToo same]
  · exact replaced_comm same first.1.length second.1.length tree

end Provenance.Settings
