import Provenance.Data.Part
import Provenance.Proofs.Data.Plain

/-!
Contract: what is at the paths of keys in dictionaries within one another.

Owns:
- `Value.entryAt?`, what is at a path of keys;
- `Value.leaves`, what is no dictionary at the ends of paths, in order;
- `Value.ComesBefore`, the order of the paths: all below a key comes before what is below a later one;
- `mem_leaves_iff` and `pairwise_leaves`: these are just the values that are there, in this order.

Does **not** own: one text for a path, and keys that are no texts.

## Why leaves are a list

A path leads to one value at most, so the leaves could be a map.  But whoever walks through a
dictionary sees them one after another, and that is what is printed of them.
-/

set_option autoImplicit false

namespace Provenance.Data

namespace Value

variable {value leaf part : Value} {path : List String} {key : String} {entries : Entries}

/-! ## Paths -/

/-- What is at a path of keys. -/
def entryAt? : List String → Value → Option Value
  | [], value => some value
  | key :: rest, value => (value.entry? key).bind (entryAt? rest)

theorem entryAt?_cons {key : String} {rest : List String} {value found : Value} :
    value.entryAt? (key :: rest) = some found ↔
      ∃ entries part, value = .dict entries ∧ Entries.get? entries key = some part ∧
        part.entryAt? rest = some found := by
  rw [entryAt?, Option.bind_eq_some_iff]
  constructor
  · rintro ⟨part, isEntry, behind⟩
    cases value with
    | dict entries => exact ⟨entries, part, rfl, isEntry, behind⟩
    | _ => cases isEntry
  · rintro ⟨entries, part, rfl, isEntry, behind⟩
    exact ⟨part, isEntry, behind⟩

/-- What is no dictionary has nothing below it. -/
theorem entryAt?_of_leaf (unlike : ∀ entries, value ≠ .dict entries) :
    value.entryAt? path = some leaf ↔ path = [] ∧ leaf = value := by
  cases path with
  | nil => simp [entryAt?, eq_comm]
  | cons key rest =>
      rw [entryAt?_cons]
      constructor
      · rintro ⟨entries, -, isDict, -⟩
        exact absurd isDict (unlike entries)
      · rintro ⟨empty, -⟩
        exact absurd empty (List.cons_ne_nil key rest)

/-- What is at a path of a dictionary is at the rest of the path below one of its entries. -/
theorem entryAt?_record {entries : List (String × Value)} (distinct : (entries.map Prod.fst).Nodup)
    {rest : List String} :
    (record entries).entryAt? (key :: rest) = some leaf ↔
      ∃ part, (key, part) ∈ entries ∧ part.entryAt? rest = some leaf := by
  rw [entryAt?_cons]
  constructor
  · rintro ⟨_, part, isDict, isEntry, behind⟩
    obtain rfl := dict.inj isDict
    obtain ⟨before, after, split, -⟩ := Entries.exists_split_of_get? isEntry
    have member : (Scalar.text key, part) ∈ Entries.named entries := by
      rw [Entries.named, split]
      simp
    obtain ⟨entry, isThere, same⟩ := List.mem_map.mp member
    obtain ⟨sameKey, rfl⟩ := Prod.mk.inj same
    obtain rfl := Scalar.text.inj sameKey
    exact ⟨entry.2, isThere, behind⟩
  · rintro ⟨part, isThere, behind⟩
    exact ⟨_, part, rfl, Entries.get?_named distinct isThere, behind⟩

/-! ## Leaves -/

mutual

/-- What is no dictionary at the ends of the paths of a value, each with its path. -/
def leaves : Value → List (List String × Value)
  | .dict entries => leavesOfEntries entries
  | other => [([], other)]

/-- The leaves below some entries, those of one entry before those of the next. -/
def leavesOfEntries : List (Scalar × Value) → List (List String × Value)
  | [] => []
  | (.text key, value) :: rest =>
    value.leaves.map (fun (path, leaf) => (key :: path, leaf)) ++ leavesOfEntries rest
  | _ :: rest => leavesOfEntries rest

end

theorem leaves_of_leaf (unlike : ∀ entries, value ≠ .dict entries) :
    value.leaves = [([], value)] := by
  cases value with
  | dict entries => exact absurd rfl (unlike entries)
  | _ => rfl

theorem leaves_record (entries : List (String × Value)) :
    (record entries).leaves = entries.flatMap fun (key, value) =>
      value.leaves.map fun (path, leaf) => (key :: path, leaf) := by
  change leavesOfEntries (Entries.named entries) = _
  induction entries with
  | nil => rfl
  | cons entry rest inductionHypothesis =>
      rw [List.flatMap_cons, ← inductionHypothesis]
      rfl

/-- **The leaves of a tree are what is no dictionary at a path of it.** -/
theorem mem_leaves_iff (isTree : value.IsTree) :
    (path, leaf) ∈ value.leaves ↔
      value.entryAt? path = some leaf ∧ ∀ entries, leaf ≠ .dict entries := by
  induction isTree generalizing path with
  | @leaf value unlike =>
      rw [leaves_of_leaf unlike, List.mem_singleton, Prod.mk.injEq, entryAt?_of_leaf unlike]
      constructor
      · rintro ⟨rfl, rfl⟩
        exact ⟨⟨rfl, rfl⟩, unlike⟩
      · exact fun isLeaf => isLeaf.1
  | @record entries distinct _ inductionHypothesis =>
      rw [leaves_record, List.mem_flatMap]
      constructor
      · rintro ⟨entry, isThere, member⟩
        obtain ⟨below, isBelow, same⟩ := List.mem_map.mp member
        obtain ⟨rfl, rfl⟩ := Prod.mk.inj same
        obtain ⟨found, unlike⟩ := (inductionHypothesis entry isThere).mp isBelow
        exact ⟨(entryAt?_record distinct).mpr ⟨entry.2, isThere, found⟩, unlike⟩
      · rintro ⟨found, unlike⟩
        cases path with
        | nil => exact absurd (Option.some.inj found).symm (unlike (Entries.named entries))
        | cons key rest =>
            obtain ⟨part, isThere, behind⟩ := (entryAt?_record distinct).mp found
            have isBelow := (inductionHypothesis (key, part) isThere).mpr ⟨behind, unlike⟩
            exact ⟨(key, part), isThere, List.mem_map.mpr ⟨(rest, leaf), isBelow, rfl⟩⟩

/-! ## The order of leaves -/

/-- Of two paths into a value, which part at some dictionary, the first goes on with the earlier
key. -/
inductive ComesBefore : Value → List String → List String → Prop
  | apart {entries : Entries} {first second : String} (path path' : List String) :
    List.Sublist [first, second] (Entries.texts entries) →
      ComesBefore (.dict entries) (first :: path) (second :: path')
  | within {entries : Entries} {key : String} {part : Value} {path path' : List String} :
    Entries.get? entries key = some part → ComesBefore part path path' →
      ComesBefore (.dict entries) (key :: path) (key :: path')

/-- **Leaves stand in the order of their paths.** -/
theorem pairwise_leaves (isTree : value.IsTree) :
    value.leaves.Pairwise fun first second => value.ComesBefore first.1 second.1 := by
  induction isTree with
  | @leaf value unlike =>
      rw [leaves_of_leaf unlike]
      exact List.pairwise_singleton _ _
  | @record entries distinct _ inductionHypothesis =>
      rw [leaves_record]
      apply List.pairwise_flatMap.mpr
      constructor
      · intro entry isThere
        apply List.pairwise_map.mpr
        exact (inductionHypothesis entry isThere).imp
          (ComesBefore.within (Entries.get?_named distinct isThere))
      · apply List.pairwise_iff_forall_sublist.mpr
        intro earlier later inOrder first isFirst second isSecond
        obtain ⟨below, -, rfl⟩ := List.mem_map.mp isFirst
        obtain ⟨below', -, rfl⟩ := List.mem_map.mp isSecond
        apply ComesBefore.apart
        change List.Sublist _ (Entries.texts (Entries.named entries))
        rw [Entries.texts_named]
        exact inOrder.map Prod.fst

/-- A path does not come before itself. -/
theorem ComesBefore.ne {path path' : List String} (isTree : value.IsTree)
    (isBefore : value.ComesBefore path path') : path ≠ path' := by
  induction isBefore with
  | @apart entries first second path path' inOrder =>
      rintro same
      obtain ⟨rfl, -⟩ := List.cons.inj same
      generalize isDict : Value.dict entries = value at isTree
      cases isTree with
      | leaf unlike => exact absurd isDict.symm (unlike entries)
      | @record named distinct _ =>
          obtain rfl := Value.dict.inj isDict
          have once := distinct
          rw [← Entries.texts_named] at once
          exact absurd (inOrder.nodup once) (by simp)
  | @within entries key part path path' isEntry _ inductionHypothesis =>
      intro same
      obtain ⟨named, rfl, trees⟩ := isTree.exists_named
      obtain ⟨entry, isThere, rfl⟩ := Entries.exists_mem_of_find?_named isEntry
      exact inductionHypothesis (trees entry isThere) (List.cons.inj same).2

end Value
end Provenance.Data
