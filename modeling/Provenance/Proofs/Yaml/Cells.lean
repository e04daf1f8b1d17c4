import Provenance.Proofs.Data.Places
import Provenance.Yaml.Reader

/-!
Contract: the cells of a document that was read.

Owns:
- `Construction.Keeps`, steps of a construction after which every cell still holds a collection
  or nothing, with a rule for each way of building a step;
- `holdsCollections_of_read`: links of a read document lead to collections.

Does **not** own: which collections they are.
-/

set_option autoImplicit false

namespace Provenance.Yaml

open Data (Scalar Value Entries Cells Kind)

namespace Construction

variable {α β : Type} {post : α → Prop} {post' : β → Prop}

/-- A step leaves collections in the cells where there were collections, and what it returns has a
property. -/
def Keeps (step : Constructing α) (post : α → Prop) : Prop :=
  ∀ before value after, step before = .ok (value, after) →
    before.cells.HoldsCollections → post value ∧ after.cells.HoldsCollections

/-! ## Rules -/

theorem Keeps.pure {value : α} (holds : post value) : Keeps (Pure.pure value) post := by
  intro before found after runs collections
  cases runs
  exact ⟨holds, collections⟩

theorem Keeps.throw (complaint : Complaint) : Keeps (throw complaint : Constructing α) post := by
  intro before found after runs
  cases runs

theorem Keeps.bind {step : Constructing α} {next : α → Constructing β} (first : Keeps step post)
    (rest : ∀ value, post value → Keeps (next value) post') : Keeps (step >>= next) post' := by
  intro before value after runs collections
  change (step before >>= fun (found, middle) => next found middle) = .ok (value, after) at runs
  cases stepRuns : step before with
  | error complaint =>
      rw [stepRuns] at runs
      cases runs
  | ok result =>
      obtain ⟨found, middle⟩ := result
      rw [stepRuns] at runs
      obtain ⟨holds, collectionsNext⟩ := first before found middle stepRuns collections
      exact rest found holds middle value after runs collectionsNext

theorem Keeps.map {step : Constructing α} (change : α → β) (first : Keeps step post)
    (rest : ∀ value, post value → post' (change value)) : Keeps (change <$> step) post' := by
  rw [map_eq_pure_bind]
  exact first.bind fun value holds => .pure (rest value holds)

theorem Keeps.get : Keeps get fun construction => construction.cells.HoldsCollections := by
  intro before found after runs collections
  cases runs
  exact ⟨collections, collections⟩

theorem Keeps.set {next : Construction} (collections : next.cells.HoldsCollections) :
    Keeps (set next) fun _ => True := by
  intro before found after runs _
  cases runs
  exact ⟨trivial, collections⟩

theorem Keeps.modify {change : Construction → Construction} {post : Unit → Prop}
    (holds : post ())
    (keeps : ∀ before, before.cells.HoldsCollections → (change before).cells.HoldsCollections) :
    Keeps (modify change) post := by
  intro before found after runs collections
  cases runs
  exact ⟨holds, keeps before collections⟩

theorem Keeps.mapM {step : α → Constructing β} (each : ∀ value, Keeps (step value) fun _ => True)
    (values : List α) : Keeps (values.mapM step) fun _ => True := by
  induction values with
  | nil => exact .pure trivial
  | cons value rest inductionHypothesis =>
      rw [List.mapM_cons]
      exact (each value).bind fun _ _ => inductionHypothesis.bind fun _ _ => .pure trivial

theorem Keeps.forM {step : α → Constructing Unit} (each : ∀ value, Keeps (step value) fun _ => True)
    (values : List α) : Keeps (values.forM step) fun _ => True := by
  induction values with
  | nil => exact .pure trivial
  | cons value rest inductionHypothesis =>
      exact (each value).bind fun _ _ => inductionHypothesis

/-! ## The steps of a construction -/

theorem holdsCollections_set {cells : Cells} {content : Value}
    (collections : cells.HoldsCollections) (unlike : ∀ cell kind, content ≠ .link cell kind)
    (number : Nat) : Cells.HoldsCollections (cells.setIfInBounds number content) := by
  intro cell other kind holds
  rw [Array.getElem?_setIfInBounds] at holds
  split at holds
  · split at holds
    · exact unlike other kind (Option.some.inj holds)
    · cases holds
  · exact collections cell other kind holds

theorem keeps_nodeAt (number : Nat) : Keeps (nodeAt number) fun _ => True :=
  Keeps.get.bind fun _ _ => .pure trivial

theorem keeps_put (number : Nat) (node : Node) : Keeps (put number node) fun _ => True :=
  .modify trivial fun _ collections => collections

theorem keeps_textOf (levels number : Nat) : Keeps (textOf levels number) fun _ => True := by
  induction levels generalizing number with
  | zero => exact .throw _
  | succ levels inductionHypothesis =>
      refine (keeps_nodeAt number).bind fun node _ => ?_
      cases node with
      | scalar tag text => exact .pure trivial
      | sequence tag items => exact .throw _
      | mapping tag entries =>
          refine Keeps.get.bind fun construction _ => ?_
          simp only
          split
          · exact inductionHypothesis _
          · exact .throw _

theorem keeps_begin (number : Nat) {content : Value}
    (unlike : ∀ cell kind, content ≠ .link cell kind) :
    Keeps (begin_ number content) fun _ => True := by
  have begins : Keeps (modify fun construction : Construction =>
      if construction.begun[number]?.getD true then construction
      else
        { construction with
          cells := construction.cells.setIfInBounds number content
          begun := construction.begun.setIfInBounds number true
          waiting := number :: construction.waiting }) fun _ => True := by
    refine .modify trivial fun construction collections => ?_
    split
    · exact collections
    · exact holdsCollections_set collections unlike number
  exact begins.bind fun _ _ => .pure trivial

theorem keeps_lift (result : Except Complaint α) :
    Keeps (liftM result : Constructing α) fun _ => True := by
  intro before found after runs collections
  cases result with
  | error complaint => cases runs
  | ok value =>
      cases runs
      exact ⟨trivial, collections⟩

theorem keeps_valueOf (number : Nat) : Keeps (valueOf number) fun _ => True := by
  refine (keeps_nodeAt number).bind fun node _ => Keeps.get.bind fun construction _ => ?_
  simp only
  split
  · exact (keeps_textOf _ _).bind fun _ _ => (keeps_lift _).bind fun _ _ => .pure trivial
  · refine (keeps_textOf _ _).bind fun _ _ => ?_
    cases node with
    | scalar tag text => exact (keeps_lift _).bind fun _ _ => .pure trivial
    | _ => exact .throw _
  · exact keeps_begin number fun _ _ equal => by cases equal
  · exact keeps_begin number fun _ _ equal => by cases equal
  · exact keeps_begin number fun _ _ equal => by cases equal
  · exact keeps_begin number fun _ _ equal => by cases equal
  · exact .throw _

/-! ## Merged mappings -/

theorem keeps_asText (number : Nat) : Keeps (asText number) fun _ => True := by
  refine Keeps.get.bind fun construction _ => ?_
  split
  · refine (keeps_nodeAt number).bind fun node _ => ?_
    cases node <;> exact keeps_put _ _
  · exact .pure trivial

theorem keeps_entriesOf (number : Nat) : Keeps (entriesOf number) fun _ => True := by
  refine (keeps_nodeAt number).bind fun node _ => ?_
  cases node <;> exact .pure trivial

theorem keeps_putEntries (number : Nat) (entries : List (Nat × Nat)) :
    Keeps (putEntries number entries) fun _ => True :=
  (keeps_nodeAt number).bind fun _ _ => keeps_put _ _

mutual

theorem keeps_flattenFrom : ∀ (levels number index : Nat) (merged : List (Nat × Nat)),
    Keeps (flattenFrom levels number index merged) fun _ => True
  | 0, _, _, _ => by
      rw [flattenFrom]
      exact .pure trivial
  | levels + 1, number, index, merged => by
      rw [flattenFrom]
      refine (keeps_entriesOf number).bind fun entries _ => Keeps.get.bind fun construction _ => ?_
      refine (Keeps.forM (fun entry : Nat × Nat => keeps_asText entry.1) _).bind fun _ _ => ?_
      simp only
      split
      · exact keeps_putEntries _ _
      · refine (keeps_putEntries _ _).bind fun _ _ => (keeps_nodeAt _).bind fun node _ => ?_
        have goesOn := fun next more => keeps_flattenFrom levels number next (merged ++ more)
        cases node with
        | scalar tag text => exact Keeps.bind (.throw _ : Keeps _ fun _ => True) fun _ _ => goesOn _ _
        | sequence tag items => exact (keeps_flattenItems levels items).bind fun _ _ => goesOn _ _
        | mapping tag entries =>
            exact (keeps_flattenFrom levels _ _ _).bind fun _ _ => (keeps_entriesOf _).bind
              fun _ _ => goesOn _ _

theorem keeps_flattenItems : ∀ (levels : Nat) (items : List Nat),
    Keeps (flattenItems levels items) fun _ => True
  | _, [] => by
      rw [flattenItems]
      exact .pure trivial
  | levels, item :: rest => by
      rw [flattenItems]
      refine (keeps_nodeAt item).bind fun node _ => ?_
      cases node with
      | mapping tag entries =>
          exact (keeps_flattenFrom levels _ _ _).bind fun _ _ => (keeps_entriesOf _).bind fun _ _ =>
            (keeps_flattenItems levels rest).bind fun _ _ => .pure trivial
      | _ => exact .throw _

end

theorem keeps_flatten (number : Nat) : Keeps (flatten number) fun _ => True :=
  Keeps.get.bind fun _ _ => keeps_flattenFrom _ _ _ _

/-! ## Contents -/

theorem keeps_entryValue (entry : Nat × Nat) : Keeps (entryValue entry) fun _ => True := by
  refine (keeps_valueOf _).bind fun key _ => ?_
  have keyed : Keeps (keyOf key) fun _ => True := by
    cases key with
    | scalar => exact .pure trivial
    | _ => exact .throw _
  exact keyed.bind fun _ _ => (keeps_valueOf _).bind fun _ _ => .pure trivial

theorem keeps_mappingOf (number : Nat) : Keeps (mappingOf number) fun _ => True := by
  refine (keeps_nodeAt number).bind fun node _ => ?_
  cases node with
  | mapping tag entries =>
      exact (keeps_flatten _).bind fun _ _ => (keeps_entriesOf _).bind fun _ _ =>
        (Keeps.mapM keeps_entryValue _).bind fun _ _ => .pure trivial
  | _ => exact .throw _

theorem keeps_pairOf (number : Nat) : Keeps (pairOf number) fun _ => True := by
  refine (keeps_nodeAt number).bind fun node _ => ?_
  split
  · exact (keeps_valueOf _).bind fun _ _ => (keeps_valueOf _).bind fun _ _ => .pure trivial
  · exact .throw _

theorem keeps_itemsOf (number : Nat) : Keeps (itemsOf number) fun _ => True := by
  refine (keeps_nodeAt number).bind fun node _ => ?_
  cases node with
  | sequence tag items => exact .pure trivial
  | _ => exact .throw _

theorem keeps_contentOf (number : Nat) :
    Keeps (contentOf number) fun content => ∀ cell kind, content ≠ .link cell kind := by
  refine (keeps_nodeAt number).bind fun node _ => ?_
  split
  · exact (keeps_itemsOf _).bind fun _ _ => (Keeps.mapM keeps_valueOf _).map _ fun _ _ _ _ equal => by
      cases equal
  · exact (keeps_itemsOf _).bind fun _ _ => (Keeps.mapM keeps_pairOf _).map _ fun _ _ _ _ equal => by
      cases equal
  · exact (keeps_mappingOf _).map _ fun _ _ _ _ equal => by cases equal
  · exact (keeps_mappingOf _).bind fun _ _ => .pure fun _ _ equal => by cases equal
  · exact .pure fun _ _ equal => by cases equal

theorem keeps_fill (number : Nat) : Keeps (fill number) fun _ => True :=
  (keeps_contentOf number).bind fun _ unlike =>
    .modify trivial fun _ collections => holdsCollections_set collections unlike number

theorem keeps_fillAll (rounds : Nat) : Keeps (fillAll rounds) fun _ => True := by
  induction rounds with
  | zero => exact .pure trivial
  | succ rounds inductionHypothesis =>
      refine Keeps.get.bind fun construction collections => ?_
      split
      · exact .pure trivial
      · refine Keeps.bind (.set ?_) fun _ _ => (Keeps.forM keeps_fill _).bind fun _ _ =>
          inductionHypothesis
        exact collections

theorem keeps_document (root : Nat) : Keeps (document root) fun _ => True :=
  (keeps_valueOf root).bind fun _ _ => Keeps.get.bind fun _ _ => (keeps_fillAll _).bind fun _ _ =>
    .pure trivial

end Construction

/-! ## The whole document -/

theorem holdsCollections_of_construct {graph : Graph} {shared : Data.Shared}
    (constructs : graph.construct = .ok shared) : shared.cells.HoldsCollections := by
  unfold Graph.construct at constructs
  split at constructs
  · obtain rfl := Except.ok.inj constructs
    exact fun _ _ _ holds => by cases holds
  · simp only at constructs
    split at constructs
    · next value construction runs =>
        obtain rfl := Except.ok.inj constructs
        refine (Construction.keeps_document _ _ value construction runs ?_).2
        intro cell other kind holds
        rw [Array.getElem?_replicate] at holds
        split at holds <;> cases holds
    · cases constructs

/-- The links of a document that was read lead to collections. -/
theorem holdsCollections_of_read {text : String} {shared : Data.Shared}
    (reads : read text = .ok shared) : shared.cells.HoldsCollections := by
  unfold read at reads
  split at reads
  · next value constructs =>
      obtain rfl := Except.ok.inj reads
      cases graph : Graph.ofTokens (Token.scan text.toList) with
      | error complaint =>
          rw [graph] at constructs
          cases constructs
      | ok found =>
          rw [graph] at constructs
          exact holdsCollections_of_construct constructs
  · cases reads

end Provenance.Yaml
