import Mathlib.Data.List.TakeWhile
import Provenance.Yaml.Reader

/-!
Contract: how the collections of a graph are filled.

Owns:
- `bind_of_ok`, the step after a step that ended;
- `flatten_of_plain` and `fill_of_plain`, what becomes of a mapping in which nothing is merged;
- `fillAll_of_waiting` and `fillAll_of_idle`, the rounds;
- `document_of_fills`, the whole construction from its rounds.

Does **not** own: mappings that others are merged into.
-/

set_option autoImplicit false

namespace Provenance.Yaml.Construction

open Data (Scalar Value Entries)

variable {construction after : Construction} {number rounds : Nat} {tag : String}
  {entries : List (Nat × Nat)}

/-! ## Steps -/

theorem bind_of_ok {α β : Type} {step : Constructing α} {next : α → Constructing β}
    {before after : Construction} {value : α} (runs : step before = .ok (value, after)) :
    (step >>= next) before = next value after := by
  change (step before >>= fun (found, middle) => next found middle) = _
  rw [runs]
  rfl

theorem get_eq :
    (get : Constructing Construction) construction = .ok (construction, construction) := rfl

theorem nodeAt_of_some {node : Node} (isNode : construction.nodes[number]? = some node) :
    nodeAt number construction = .ok (node, construction) := by
  unfold nodeAt
  rw [bind_of_ok get_eq, isNode]
  rfl

theorem entriesOf_of_mapping
    (isMapping : construction.nodes[number]? = some (.mapping tag entries)) :
    entriesOf number construction = .ok (entries, construction) := by
  unfold entriesOf
  rw [bind_of_ok (nodeAt_of_some isMapping)]
  rfl

/-! ## Mappings in which nothing is merged -/

theorem forM_asText
    (plain : ∀ entry ∈ entries, construction.hasTag .defaultValue entry.1 = false) :
    (entries.forM (fun (key, _) => asText key) : Constructing Unit) construction =
      .ok ((), construction) := by
  induction entries with
  | nil => rfl
  | cons entry rest inductionHypothesis =>
      have unchanged : asText entry.1 construction = .ok ((), construction) := by
        unfold asText
        rw [bind_of_ok get_eq, plain entry List.mem_cons_self]
        rfl
      exact (bind_of_ok unchanged).trans
        (inductionHypothesis fun other member => plain other (List.mem_cons_of_mem _ member))

/-- A mapping in which nothing is merged stays as it is. -/
theorem flatten_of_plain
    (isMapping : construction.nodes[number]? = some (.mapping tag entries))
    (unmerged : ∀ entry ∈ entries, construction.hasTag .merge entry.1 = false)
    (plain : ∀ entry ∈ entries, construction.hasTag .defaultValue entry.1 = false) :
    flatten number construction = .ok ((), construction) := by
  have all : entries.takeWhile (fun entry => !construction.hasTag .merge entry.1) = entries := by
    rw [List.takeWhile_eq_self_iff]
    intro entry member
    rw [unmerged entry member]
    rfl
  have past : entries[0 + entries.length]? = none := by simp
  have put_back : construction.nodes.setIfInBounds number (.mapping tag entries) =
      construction.nodes := by
    obtain ⟨bound, isNode⟩ := Array.getElem?_eq_some_iff.mp isMapping
    rw [← isNode, Array.setIfInBounds, dif_pos bound, Array.set_getElem_self]
  unfold flatten
  rw [bind_of_ok get_eq, flattenFrom, bind_of_ok (entriesOf_of_mapping isMapping),
    bind_of_ok get_eq]
  simp only [List.drop_zero, all]
  rw [bind_of_ok (forM_asText plain)]
  simp only [past]
  unfold putEntries
  rw [bind_of_ok (nodeAt_of_some isMapping)]
  change Except.ok ((), { construction with nodes := construction.nodes.setIfInBounds number _ }) = _
  rw [List.nil_append, show (Node.mapping tag entries).tag = tag from rfl, put_back]

/-- Such a mapping becomes the dictionary of its entries. -/
theorem fill_of_plain (isMapping : construction.nodes[number]? = some (.mapping tag entries))
    (unmerged : ∀ entry ∈ entries, construction.hasTag .merge entry.1 = false)
    (plain : ∀ entry ∈ entries, construction.hasTag .defaultValue entry.1 = false)
    (isDict : Maker.ofTag? tag = some .dict) {found : List (Scalar × Value)}
    (reads : entries.mapM entryValue construction = .ok (found, after)) :
    fill number construction = .ok ((), { after with
      cells := after.cells.setIfInBounds number (.dict (Entries.ofList found)) }) := by
  have node := nodeAt_of_some isMapping
  have mapping : mappingOf number construction = .ok (Entries.ofList found, after) := by
    unfold mappingOf
    rw [bind_of_ok node]
    simp only
    rw [bind_of_ok (flatten_of_plain isMapping unmerged plain),
      bind_of_ok (entriesOf_of_mapping isMapping), bind_of_ok reads]
    rfl
  have content : contentOf number construction = .ok (.dict (Entries.ofList found), after) := by
    unfold contentOf
    rw [bind_of_ok node]
    simp only [Node.tag, isDict]
    rw [map_eq_pure_bind, bind_of_ok mapping]
    rfl
  unfold fill
  rw [bind_of_ok content]
  rfl

/-! ## Rounds -/

theorem fillAll_of_idle (idle : construction.waiting = []) :
    fillAll rounds construction = .ok ((), construction) := by
  cases rounds with
  | zero => rfl
  | succ rounds =>
      rw [fillAll, bind_of_ok get_eq, idle]
      rfl

/-- A round in which one collection waits. -/
theorem fillAll_of_waiting (waits : construction.waiting = [number])
    (fills : fill number { construction with waiting := [] } = .ok ((), after)) :
    fillAll (rounds + 1) construction = fillAll rounds after := by
  have emptied : (set { construction with waiting := [] } : Constructing Unit) construction =
      .ok ((), { construction with waiting := [] }) := rfl
  have all : ([number].reverse.forM fill : Constructing Unit) { construction with waiting := [] } =
      .ok ((), after) := bind_of_ok fills
  rw [fillAll, bind_of_ok get_eq]
  simp only [waits]
  rw [bind_of_ok emptied, bind_of_ok all]

theorem document_of_fills {value : Value} {begun : Construction}
    (begins : valueOf number construction = .ok (value, begun))
    (fills : fillAll (begun.nodes.size + 1) begun = .ok ((), after)) :
    (document number).run construction = .ok (value, after) := by
  change (valueOf number >>= _) construction = _
  rw [bind_of_ok begins, bind_of_ok get_eq, bind_of_ok fills]
  rfl

end Provenance.Yaml.Construction
