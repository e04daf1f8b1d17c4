import Provenance.Data.Flatten
import Provenance.Proofs.Data.Leaves
import Provenance.Proofs.Text.Cut

/-!
Contract: a dictionary as one level of entries.

Owns:
- `Value.isTooLongList`, what flattening has no text for;
- `Entries.IsFlat`, entries under texts whose numbers were there before;
- `exists_flatten`: a plain dictionary is flattened to such entries;
- `Value.IsPathKeyed`, dictionaries within one another whose keys have a dot nowhere;
- `flatten_isLossless`: such a dictionary is flattened to its leaves, each under its path, and
  `flatten_refused_long`, one that cannot be.

Does **not** own: the columns and rows made of the entries.

## Why keys may not have a dot

A path is written with dots between its keys, so with dots in them two paths could have one text.  The
later of two such entries takes the place of the earlier one.  An empty key is left out of the text
where it comes first, which leads to the same.
-/

set_option autoImplicit false

namespace Provenance.Data

open Failure (Fault)

/-! ## Flattening -/

/-- A list, some number inside of which has too many digits: not all of its items have a text. -/
def Value.isTooLongList [Text.DigitLimit] : Value → Bool
  | .list items => Value.areItemsTooLong items
  | .pairs entries => Value.arePairsTooLong entries
  | _ => false

/-- A dictionary that has no text in one place or another of it when it is flattened. -/
def Value.hasTooLongList [Text.DigitLimit] (value : Value) : Bool :=
  value.leaves.any fun leaf => leaf.2.isTooLongList

/-- Entries under texts, in which a number has too many digits only if one had before. -/
def Entries.IsFlat [Text.DigitLimit] (isTooLong : Prop) (entries : Entries) : Prop :=
  entries.AreNamed fun value => value.isTooLong = true → isTooLong

section Flattening

variable [limit : Text.DigitLimit] {value : Value}

namespace Entries.IsFlat

theorem nil {isTooLong : Prop} : IsFlat isTooLong [] :=
  AreNamed.nil

theorem single {isTooLong : Prop} {value : Value} (name : String)
    (noLonger : value.isTooLong = true → isTooLong) : IsFlat isTooLong [(.text name, value)] :=
  AreNamed.single name noLonger

theorem weaken {isTooLong isTooLong' : Prop} {entries : Entries} (flat : IsFlat isTooLong entries)
    (longer : isTooLong → isTooLong') : IsFlat isTooLong' entries :=
  fun entry member => ⟨(flat entry member).1, fun long => longer ((flat entry member).2 long)⟩

end Entries.IsFlat

theorem Value.hasTooLongList_record (entries : List (String × Value)) :
    (Value.record entries).hasTooLongList = entries.any fun entry => entry.2.hasTooLongList := by
  rw [hasTooLongList, leaves_record, List.any_flatMap]
  congr 1
  funext entry
  rw [List.any_map]
  rfl

theorem Value.hasTooLongList_of_leaf (unlike : ∀ entries, value ≠ .dict entries) :
    value.hasTooLongList = value.isTooLongList := by
  rw [hasTooLongList, leaves_of_leaf unlike, List.any_cons, List.any_nil, Bool.or_false]

/-- A list has no text only if a number in it has too many digits. -/
theorem Value.isTooLong_of_isTooLongList (long : value.isTooLongList = true) :
    value.isTooLong = true := by
  cases value with
  | list items => exact long
  | pairs entries => exact long
  | _ => cases long

theorem Value.hasTooLongList_of_unlimited (unlimited : limit.most? = none) (value : Value) :
    value.hasTooLongList = false := by
  refine List.any_eq_false.mpr fun leaf _ long => ?_
  have short := leaf.2.isTooLong_of_unlimited unlimited
  exact Bool.false_ne_true (short.symm.trans (Value.isTooLong_of_isTooLongList long))

theorem Value.IsPlain.isTooLong_of_hasTooLongList (plain : value.IsPlain)
    (long : value.hasTooLongList = true) : value.isTooLong = true := by
  induction plain with
  | @record entries _ _ inductionHypothesis =>
      rw [Value.hasTooLongList_record, List.any_eq_true] at long
      obtain ⟨entry, member, isLong⟩ := long
      refine (Value.areEntriesTooLong_named entries).trans (List.any_eq_true.mpr ⟨entry, member, ?_⟩)
      exact inductionHypothesis entry member isLong
  | _ =>
      rw [Value.hasTooLongList_of_leaf (by rintro _ isDict; cases isDict)] at long
      exact Value.isTooLong_of_isTooLongList long

theorem exists_pathKey (separator parent name : String) :
    ∃ path, pathKey separator (.text parent) (.text name) = .ok (.text path) := by
  unfold pathKey
  split
  · exact ⟨_, rfl⟩
  · exact ⟨name, rfl⟩

theorem cellOfList_eq (items : List Value) :
    cellOfList items =
      unlessLong (Value.areItemsTooLong items) (", ".intercalate (items.map Value.display)) := by
  rw [cellOfList, mapM_unlessLong (fun _ _ => rfl : ∀ item ∈ items, item.shown =
    unlessLong item.isTooLong item.display), unlessLong_map, Value.areItemsTooLong_eq]

/-- What stands for a leaf: for a list the texts of its items, and else the leaf itself. -/
def Value.inCell : Value → Value
  | .list items => .text (", ".intercalate (items.map Value.display))
  | .pairs entries => .text (", ".intercalate (Value.inspectPairs entries))
  | other => other

/-- What is no dictionary is one entry. -/
theorem flattenValue_of_leaf (unlike : ∀ entries, value ≠ .dict entries) (separator : String)
    (key : Scalar) :
    flattenValue separator key value = unlessLong value.isTooLongList [(key, value.inCell)] := by
  cases value with
  | dict entries => exact absurd rfl (unlike entries)
  | list items =>
      rw [flattenValue, cellOfList_eq, unlessLong_map]
      rfl
  | pairs entries =>
      rw [flattenValue, show cellOfPairs entries = unlessLong _ _ from rfl, unlessLong_map]
      rfl
  | _ => rfl

/-- A leaf in a cell has a number of too many digits only if it had one before. -/
theorem Value.isTooLong_of_inCell (long : value.inCell.isTooLong = true) : value.isTooLong = true := by
  cases value with
  | list items => cases long
  | pairs entries => cases long
  | _ => exact long

theorem flattenEntries_cons (separator parent : String) (entry : String × Value)
    (rest : List (String × Value)) :
    flattenEntries separator (.text parent) (Entries.named (entry :: rest)) =
      pathKey separator (.text parent) (.text entry.1) >>= fun path =>
        flattenValue separator path entry.2 >>= fun first =>
          flattenEntries separator (.text parent) (Entries.named rest) >>= fun others =>
            pure (first ++ others) := by
  rw [Entries.named, List.map_cons, flattenEntries]
  rfl

theorem exists_flattenEntries {isTooLong : Prop} (separator parent : String)
    {entries : List (String × Value)}
    (each : ∀ entry ∈ entries, ∀ name, ∃ flattened,
      flattenValue separator (.text name) entry.2 = unlessLong entry.2.hasTooLongList flattened ∧
        Entries.IsFlat isTooLong flattened) :
    ∃ flattened, flattenEntries separator (.text parent) (Entries.named entries) =
        unlessLong (entries.any fun entry => entry.2.hasTooLongList) flattened ∧
      Entries.IsFlat isTooLong flattened := by
  induction entries with
  | nil => exact ⟨[], rfl, .nil⟩
  | cons entry rest inductionHypothesis =>
      obtain ⟨first, others⟩ := List.forall_mem_cons.mp each
      obtain ⟨path, isPath⟩ := exists_pathKey separator parent entry.1
      obtain ⟨front, isFront, isFlat⟩ := first path
      obtain ⟨back, isBack, areFlat⟩ := inductionHypothesis others
      refine ⟨front ++ back, ?_, isFlat.append areFlat⟩
      rw [flattenEntries_cons, isPath, List.any_cons, isBack]
      change flattenValue separator (.text path) entry.2 >>= _ = _
      rw [isFront]
      exact unlessLong_bind (unlessLong_bind_pure (front ++ ·))

theorem exists_flattenValue_of_leaf (unlike : ∀ entries, value ≠ .dict entries)
    (separator name : String) :
    ∃ flattened, flattenValue separator (.text name) value =
        unlessLong value.hasTooLongList flattened ∧
      Entries.IsFlat (value.isTooLong = true) flattened := by
  rw [flattenValue_of_leaf unlike, Value.hasTooLongList_of_leaf unlike]
  exact ⟨_, rfl, .single name Value.isTooLong_of_inCell⟩

/-- A plain value is flattened to entries under texts, unless a list in it has no text. -/
theorem exists_flattenValue (plain : value.IsPlain) (separator name : String) :
    ∃ flattened, flattenValue separator (.text name) value =
        unlessLong value.hasTooLongList flattened ∧
      Entries.IsFlat (value.isTooLong = true) flattened := by
  induction plain generalizing name with
  | @record entries _ _ inductionHypothesis =>
      have isTooLong_eq : (Value.record entries).isTooLong =
          entries.any fun entry => entry.2.isTooLong := Value.areEntriesTooLong_named entries
      rw [isTooLong_eq, Value.hasTooLongList_record]
      obtain ⟨flattened, isFlattened, flat⟩ := exists_flattenEntries separator name
        fun entry member name => (inductionHypothesis entry member name).imp fun _ found =>
          found.imp_right (·.weaken fun long => List.any_eq_true.mpr ⟨entry, member, long⟩)
      refine ⟨Entries.ofList flattened, ?_, flat.ofList⟩
      exact (congrArg (Except.map Entries.ofList) isFlattened).trans (unlessLong_map _)
  | _ => exact exists_flattenValue_of_leaf (by rintro _ isDict; cases isDict) separator name

/-- **A plain dictionary is flattened to entries under texts**, unless a list in it has no text. -/
theorem exists_flatten {entries : List (String × Value)} (plain : (Value.record entries).IsPlain) :
    ∃ flattened, flatten "." (.text "") (.record entries) =
        unlessLong (Value.record entries).hasTooLongList flattened ∧
      Entries.IsFlat ((Value.record entries).isTooLong = true) flattened :=
  exists_flattenValue plain "." ""

end Flattening

/-! ## Paths as keys -/

/-- The key of a path below a parent; below an empty one it is the path's own. -/
def pathName (parent : String) (path : List String) : String :=
  ".".intercalate (if parent = "" then path else parent :: path)

section Paths

variable {parent key : String} {path path' : List String}

theorem pathName_singleton (key : String) : pathName "" [key] = key := by
  rw [pathName, if_pos rfl, String.intercalate_singleton]

theorem pathName_nil (given : parent ≠ "") : pathName parent [] = parent := by
  rw [pathName, if_neg given, String.intercalate_singleton]

/-- A parent stands before the path's own key. -/
theorem pathName_of_parent (given : parent ≠ "") (more : path ≠ []) :
    pathName parent path = parent ++ "." ++ pathName "" path := by
  cases path with
  | nil => exact absurd rfl more
  | cons key rest =>
      rw [pathName, pathName, if_neg given, if_pos rfl, String.intercalate_cons_cons]

theorem pathKey_eq [Text.DigitLimit] (parent key : String) :
    pathKey "." (.text parent) (.text key) = .ok (.text (pathName parent [key])) := by
  by_cases given : parent = ""
  · subst given
    rw [pathName_singleton]
    rfl
  · have isTruthy : (Value.text parent).isTruthy = true := by
      simpa [Value.isTruthy] using given
    rw [pathName_of_parent given (List.cons_ne_nil key []), pathName_singleton, pathKey,
      if_pos isTruthy]
    rfl

theorem pathName_ne_empty (given : key ≠ "") : pathName parent [key] ≠ "" := by
  by_cases empty : parent = ""
  · rw [empty, pathName_singleton]
    exact given
  · rw [pathName_of_parent empty (List.cons_ne_nil key []), pathName_singleton]
    simp [given]

/-- A path below an entry is a path below its parent. -/
theorem pathName_pathName (given : key ≠ "") :
    pathName (pathName parent [key]) path = pathName parent (key :: path) := by
  cases path with
  | nil => exact pathName_nil (pathName_ne_empty given)
  | cons next rest =>
      have given' : pathName parent [key] ≠ "" := pathName_ne_empty given
      have below := pathName_of_parent given' (List.cons_ne_nil next rest)
      have own : pathName "" (key :: next :: rest) = key ++ "." ++ pathName "" (next :: rest) := by
        rw [pathName, pathName, if_pos rfl, if_pos rfl, String.intercalate_cons_cons]
      rw [below]
      by_cases empty : parent = ""
      · rw [empty, pathName_singleton, own]
      · rw [pathName_of_parent empty (List.cons_ne_nil key []), pathName_singleton,
          pathName_of_parent empty (List.cons_ne_nil key _), own]
        simp only [String.append_assoc]

/-- Paths whose keys have no dot are told apart by their texts. -/
theorem pathName_injective (given : path ≠ []) (given' : path' ≠ [])
    (plain : ∀ key ∈ path, '.' ∉ key.toList) (plain' : ∀ key ∈ path', '.' ∉ key.toList)
    (same : pathName parent path = pathName parent path') : path = path' := by
  have pieces : ∀ {path : List String}, path ≠ [] → (∀ key ∈ path, '.' ∉ key.toList) →
      Text.split '.' (pathName "" path).toList = path.map String.toList := by
    intro path given plain
    have isMark : ".".toList = ['.'] := rfl
    rw [pathName, if_pos rfl, Text.toList_intercalate isMark]
    apply Text.split_joinWith
    · simpa using given
    · simpa using plain
  have own : pathName "" path = pathName "" path' := by
    by_cases empty : parent = ""
    · rwa [empty] at same
    · rw [pathName_of_parent empty given, pathName_of_parent empty given'] at same
      exact (String.append_right_inj _).mp same
  have split_eq := pieces given plain
  rw [own, pieces given' plain'] at split_eq
  exact (List.map_injective_iff.mpr fun _ _ => String.toList_inj.mp) split_eq.symm

end Paths

/-! ## Leaves as entries -/

/-- A key that can be told apart from its neighbours in the text of a path. -/
structure IsPathKey (key : String) : Prop where
  given : key ≠ ""
  plain : '.' ∉ key.toList

/-- A value whose dictionaries within dictionaries have such keys, each of them once. -/
inductive Value.IsPathKeyed : Value → Prop
  | leaf {value : Value} : (∀ entries, value ≠ .dict entries) → IsPathKeyed value
  | record {entries : List (String × Value)} : (entries.map Prod.fst).Nodup →
    (∀ entry ∈ entries, IsPathKey entry.1) → (∀ entry ∈ entries, IsPathKeyed entry.2) →
      IsPathKeyed (.record entries)

/-- Leaves as the entries under their paths below a parent, if all of them have a text. -/
def cells [Text.DigitLimit] (parent : String) (leaves : List (List String × Value)) :
    Except Fault Entries :=
  unlessLong (leaves.any fun leaf => leaf.2.isTooLongList)
    (Entries.named (leaves.map fun leaf => (pathName parent leaf.1, leaf.2.inCell)))

section Cells

variable [Text.DigitLimit] {parent key : String} {entries : List (String × Value)}
  {first others : List (List String × Value)}

theorem cells_append (parent : String) (first others : List (List String × Value)) :
    cells parent (first ++ others) =
      cells parent first >>= fun front => cells parent others >>= fun rest => pure (front ++ rest) := by
  simp only [cells, List.any_append, List.map_append, Entries.named]
  refine (unlessLong_bind ?_).symm
  exact unlessLong_bind_pure (_ ++ ·)

/-- The leaves below an entry are those of its value under longer paths. -/
theorem cells_below (given : key ≠ "") (parent : String) (leaves : List (List String × Value)) :
    cells parent (leaves.map fun (path, leaf) => (key :: path, leaf)) =
      cells (pathName parent [key]) leaves := by
  simp only [cells, List.any_map, List.map_map]
  congr 2
  apply List.map_congr_left
  intro leaf _
  exact congrArg (·, leaf.2.inCell) (pathName_pathName given).symm

/-- Leaves whose paths have different texts make the dictionary that they are. -/
theorem cells_ofList (apart : (first.map fun leaf => pathName parent leaf.1).Nodup) :
    (cells parent first).map Entries.ofList = cells parent first := by
  have distinct : ((first.map fun leaf => (pathName parent leaf.1, leaf.2.inCell)).map
      Prod.fst).Nodup := by
    rwa [List.map_map]
  rw [cells, unlessLong_map, Entries.ofList_named distinct]

/-- What is no dictionary is one entry. -/
theorem flattenValue_eq_cells {value : Value} (unlike : ∀ entries, value ≠ .dict entries)
    (given : key ≠ "") : flattenValue "." (.text key) value = cells key [([], value)] := by
  rw [flattenValue_of_leaf unlike, cells, List.any_cons, List.any_nil, Bool.or_false, List.map_cons,
    List.map_nil, pathName_nil given]
  rfl

/-- Entries whose values contribute their leaves contribute all of their leaves, in order. -/
theorem flattenEntries_eq (parent : String) (given : ∀ entry ∈ entries, entry.1 ≠ "")
    (each : ∀ entry ∈ entries, ∀ key, key ≠ "" →
      flattenValue "." (.text key) entry.2 = cells key entry.2.leaves) :
    flattenEntries "." (.text parent) (Entries.named entries) =
      cells parent (Value.record entries).leaves := by
  rw [Value.leaves_record]
  induction entries with
  | nil => rfl
  | cons entry rest inductionHypothesis =>
      obtain ⟨firstGiven, otherGiven⟩ := List.forall_mem_cons.mp given
      obtain ⟨first, others⟩ := List.forall_mem_cons.mp each
      rw [List.flatMap_cons, cells_append, cells_below firstGiven,
        ← inductionHypothesis otherGiven others, ← first _ (pathName_ne_empty firstGiven),
        flattenEntries_cons, pathKey_eq]
      rfl

end Cells

/-! ## Nothing is lost -/

variable {value : Value}

theorem Value.IsPathKeyed.isTree (isKeyed : value.IsPathKeyed) : value.IsTree := by
  induction isKeyed with
  | leaf unlike => exact .leaf unlike
  | record distinct _ _ inductionHypothesis => exact .record distinct inductionHypothesis

/-- On the way to a leaf there are keys that can be told apart. -/
theorem Value.IsPathKeyed.plain_of_mem {path : List String} {leaf : Value}
    (isKeyed : value.IsPathKeyed) (isLeaf : (path, leaf) ∈ value.leaves) :
    ∀ key ∈ path, '.' ∉ key.toList := by
  induction isKeyed generalizing path with
  | leaf unlike =>
      rw [Value.leaves_of_leaf unlike, List.mem_singleton] at isLeaf
      obtain ⟨rfl, -⟩ := Prod.mk.inj isLeaf
      exact fun _ member => absurd member List.not_mem_nil
  | @record entries _ keys _ inductionHypothesis =>
      rw [Value.leaves_record, List.mem_flatMap] at isLeaf
      obtain ⟨entry, isThere, member⟩ := isLeaf
      obtain ⟨below, isBelow, same⟩ := List.mem_map.mp member
      obtain ⟨rfl, rfl⟩ := Prod.mk.inj same
      exact List.forall_mem_cons.mpr
        ⟨(keys entry isThere).plain, inductionHypothesis entry isThere isBelow⟩

theorem ne_nil_of_mem_leaves {entries : List (String × Value)} {path : List String} {leaf : Value}
    (isLeaf : (path, leaf) ∈ (Value.record entries).leaves) : path ≠ [] := by
  rw [Value.leaves_record, List.mem_flatMap] at isLeaf
  obtain ⟨entry, -, member⟩ := isLeaf
  obtain ⟨below, -, same⟩ := List.mem_map.mp member
  obtain ⟨rfl, -⟩ := Prod.mk.inj same
  exact List.cons_ne_nil _ _

/-- No two leaves have the same key. -/
theorem nodup_pathName {entries : List (String × Value)}
    (isKeyed : (Value.record entries).IsPathKeyed) (parent : String) :
    ((Value.record entries).leaves.map fun leaf => pathName parent leaf.1).Nodup := by
  apply List.pairwise_map.mpr
  apply (Value.pairwise_leaves isKeyed.isTree).imp_of_mem
  intro first second isFirst isSecond isBefore same
  exact isBefore.ne isKeyed.isTree (pathName_injective (ne_nil_of_mem_leaves isFirst)
    (ne_nil_of_mem_leaves isSecond) (isKeyed.plain_of_mem isFirst) (isKeyed.plain_of_mem isSecond)
    same)

/-- The keys of a dictionary of that kind, and the values under them. -/
theorem Value.IsPathKeyed.forall_mem {entries : List (String × Value)}
    (isKeyed : (Value.record entries).IsPathKeyed) :
    ∀ entry ∈ entries, IsPathKey entry.1 ∧ entry.2.IsPathKeyed := by
  generalize isDict : Value.record entries = value at isKeyed
  cases isKeyed with
  | leaf unlike => exact absurd isDict.symm (unlike (Entries.named entries))
  | @record others _ keys parts =>
      have same : Entries.named entries = Entries.named others := Value.dict.inj isDict
      have injective : Function.Injective fun entry : String × Value =>
          (Scalar.text entry.1, entry.2) := by
        intro entry other same
        obtain ⟨sameKey, sameValue⟩ := Prod.mk.inj same
        exact Prod.ext (Scalar.text.inj sameKey) sameValue
      obtain rfl := List.map_injective_iff.mpr injective same
      exact fun entry isThere => ⟨keys entry isThere, parts entry isThere⟩

/-- The entries with a text in front of every key. -/
def Entries.behind (front : String) (entries : Entries) : Entries :=
  entries.map fun
    | (.text key, value) => (.text (front ++ key), value)
    | other => other

section Lossless

variable [limit : Text.DigitLimit]

/-- A dictionary whose values contribute their leaves is flattened to all of its leaves. -/
theorem ofList_flattenEntries {entries : List (String × Value)}
    (isKeyed : (Value.record entries).IsPathKeyed) (parent : String)
    (each : ∀ entry ∈ entries, ∀ key, key ≠ "" →
      flattenValue "." (.text key) entry.2 = cells key entry.2.leaves) :
    (flattenEntries "." (.text parent) (Entries.named entries)).map Entries.ofList =
      cells parent (Value.record entries).leaves := by
  have given : ∀ entry ∈ entries, entry.1 ≠ "" :=
    fun entry isThere => (isKeyed.forall_mem entry isThere).1.given
  rw [flattenEntries_eq parent given each, cells_ofList (nodup_pathName isKeyed parent)]

theorem flattenValue_eq (isKeyed : value.IsPathKeyed) {key : String} (given : key ≠ "") :
    flattenValue "." (.text key) value = cells key value.leaves := by
  induction isKeyed generalizing key with
  | leaf unlike => rw [flattenValue_eq_cells unlike given, Value.leaves_of_leaf unlike]
  | record distinct keys parts inductionHypothesis =>
      exact ofList_flattenEntries (.record distinct keys parts) key fun entry isThere _ =>
        inductionHypothesis entry isThere

theorem flatten_eq {entries : List (String × Value)} (isKeyed : (Value.record entries).IsPathKeyed)
    (parent : String) :
    flatten "." (.text parent) (.record entries) = cells parent (Value.record entries).leaves :=
  ofList_flattenEntries isKeyed parent fun entry isThere _ =>
    flattenValue_eq (isKeyed.forall_mem entry isThere).2

theorem cells_of_parent {parent : String} (given : parent ≠ "")
    {leaves : List (List String × Value)} (below : ∀ leaf ∈ leaves, leaf.1 ≠ []) :
    cells parent leaves = (cells "" leaves).map (Entries.behind (parent ++ ".")) := by
  have named : Entries.named (leaves.map fun leaf => (pathName parent leaf.1, leaf.2.inCell)) =
      Entries.behind (parent ++ ".")
        (Entries.named (leaves.map fun leaf => (pathName "" leaf.1, leaf.2.inCell))) := by
    simp only [Entries.named, Entries.behind, List.map_map]
    apply List.map_congr_left
    intro leaf isLeaf
    exact congrArg (fun name => (Scalar.text name, leaf.2.inCell))
      (pathName_of_parent given (below leaf isLeaf))
  rw [cells, cells, named, unlessLong_map]

/-- A value of which flattening loses nothing. -/
structure IsLossless (value : Value) : Prop where
  /-- Its leaves are what is no dictionary at the ends of its paths. -/
  leaves : ∀ path leaf, (path, leaf) ∈ value.leaves ↔
    value.entryAt? path = some leaf ∧ ∀ entries, leaf ≠ .dict entries
  inOrder : value.leaves.Pairwise fun first second => value.ComesBefore first.1 second.1
  apart : (value.leaves.map fun leaf => ".".intercalate leaf.1).Nodup
  /-- Each of them is an entry, in the same order. -/
  flattens : limit.most? = none ∨ value.hasTooLongList = false →
    flatten "." (.text "") value = .ok (Entries.named
      (value.leaves.map fun leaf => (".".intercalate leaf.1, leaf.2.inCell)))
  below : ∀ parent, parent ≠ "" → flatten "." (.text parent) value =
    (flatten "." (.text "") value).map (Entries.behind (parent ++ "."))
  /-- All that flattening can fail for is a list with a number of too many digits in it. -/
  refuses : value.hasTooLongList = true →
    flatten "." (.text "") value = .error .tooLongToWrite

/-- **Flattening loses nothing of a dictionary whose keys have no dot.**  Each value that is no
dictionary is one entry under the keys of its path, and nothing else is an entry.

This holds under every limit on digits, and of all such dictionaries where there is none.  A number of
more digits has no text, so a list with one in it cannot become an entry. -/
theorem flatten_isLossless {entries : List (String × Value)}
    (isKeyed : (Value.record entries).IsPathKeyed) : IsLossless (.record entries) where
  leaves := fun _ _ => Value.mem_leaves_iff isKeyed.isTree
  inOrder := Value.pairwise_leaves isKeyed.isTree
  apart := nodup_pathName isKeyed ""
  flattens := by
    intro allowed
    have short : (Value.record entries).hasTooLongList = false := allowed.elim
      (fun unlimited => Value.hasTooLongList_of_unlimited unlimited _) id
    exact (flatten_eq isKeyed "").trans (unlessLong_of_short short)
  below := by
    intro parent given
    rw [flatten_eq isKeyed parent, flatten_eq isKeyed ""]
    exact cells_of_parent given fun _ isLeaf => ne_nil_of_mem_leaves isLeaf
  refuses := fun long => (flatten_eq isKeyed "").trans (unlessLong_of_long long)

end Lossless

def nestedRecord : List (String × Value) :=
  [("git", .record [("url", .text "a.b"), ("hooks", .record [])]),
    ("tags", .list [.text "v1.0", .null, .texts ["it's"]])]

/-- A dictionary with an empty one in it, and with dots in its values. -/
theorem flatten_isLossless_nested :
    (Value.record nestedRecord).IsPathKeyed ∧
      flatten "." (.text "") (.record nestedRecord) = .ok (Entries.named
        [("git.url", .text "a.b"), ("tags", .text "v1.0, None, [\"it's\"]")]) ∧
      flatten "." (.text "x.y") (.record nestedRecord) = .ok (Entries.named
        [("x.y.git.url", .text "a.b"), ("x.y.tags", .text "v1.0, None, [\"it's\"]")]) := by
  have url : (Value.text "a.b").IsPathKeyed := .leaf fun _ isDict => by cases isDict
  have tags : (Value.list [.text "v1.0", .null, .texts ["it's"]]).IsPathKeyed :=
    .leaf fun _ isDict => by cases isDict
  have hooks : (Value.record []).IsPathKeyed :=
    .record List.nodup_nil (fun _ isThere => by cases isThere) fun _ isThere => by cases isThere
  have git : (Value.record [("url", .text "a.b"), ("hooks", .record [])]).IsPathKeyed := by
    apply Value.IsPathKeyed.record (by decide) <;> simp only [List.forall_mem_cons]
    · exact ⟨⟨by decide, by decide⟩, ⟨by decide, by decide⟩, fun _ isThere => by cases isThere⟩
    · exact ⟨url, hooks, fun _ isThere => by cases isThere⟩
  have isKeyed : (Value.record nestedRecord).IsPathKeyed := by
    apply Value.IsPathKeyed.record (by decide) <;> simp only [nestedRecord, List.forall_mem_cons]
    · exact ⟨⟨by decide, by decide⟩, ⟨by decide, by decide⟩, fun _ isThere => by cases isThere⟩
    · exact ⟨git, tags, fun _ isThere => by cases isThere⟩
  have lossless := flatten_isLossless isKeyed
  have flattens : flatten "." (.text "") (.record nestedRecord) = .ok (Entries.named
      [("git.url", .text "a.b"), ("tags", .text "v1.0, None, [\"it's\"]")]) :=
    lossless.flattens (.inr (by decide))
  refine ⟨isKeyed, flattens, ?_⟩
  rw [lossless.below "x.y" (by decide), flattens]
  rfl

/-- A list of one number that is too long where no other limit is set. -/
def longList : List (String × Value) :=
  [("l", .list [.int (leastBeyond 4300)])]

/-- Its key has no dot, and under the usual limit it cannot be flattened. -/
theorem flatten_refused_long :
    (Value.record longList).IsPathKeyed ∧
      flatten "." (.text "") (.record longList) = .error .tooLongToWrite := by
  have isKeyed : (Value.record longList).IsPathKeyed := by
    refine .record (by simp [longList]) ?_ ?_ <;> simp only [longList, List.forall_mem_cons]
    · exact ⟨⟨by decide, by decide⟩, fun _ member => absurd member List.not_mem_nil⟩
    · exact ⟨.leaf (by rintro _ isDict; cases isDict), fun _ member => absurd member List.not_mem_nil⟩
  have long : (Value.record longList).hasTooLongList = true := by
    rw [Value.hasTooLongList_record, longList, List.any_cons,
      Value.hasTooLongList_of_leaf (by rintro _ isDict; cases isDict), Value.isTooLongList,
      Value.areItemsTooLong, Value.isTooLong, Scalar.isTooLong, isTooLong_leastBeyond rfl]
    rfl
  exact ⟨isKeyed, (flatten_eq isKeyed "").trans (unlessLong_of_long long)⟩

end Provenance.Data
