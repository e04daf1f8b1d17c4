import Provenance.Data.Value

/-!
Contract: the entries of a dictionary under its text keys.

Owns:
- `Entries.texts`, the keys that are texts;
- `Entries.alter`, the entries with the value under one key changed, and its laws;
- the entries around the one that a look-up finds;
- `Entries.AreNamed`, entries that are all under texts.

Does **not** own: keys that are no texts.
-/

set_option autoImplicit false

namespace Provenance.Data

theorem Scalar.sameKey_text_iff {key : Scalar} {name : String} :
    key.sameKey (.text name) = true ↔ key = .text name := by
  cases key <;> simp [Scalar.sameKey]

namespace Entries

variable {entries before after : Entries} {key other : String} {value value' : Value}
  {change change' : Value → Value}

/-- The keys that are texts, in order. -/
def texts (entries : Entries) : List String :=
  entries.filterMap fun (key, _) =>
    match key with
    | .text name => some name
    | _ => none

/-- The entries with what is under a key changed, if something is. -/
def alter (key : String) (change : Value → Value) : Entries → Entries
  | [] => []
  | (found, value) :: rest =>
    if found.sameKey (.text key) then (found, change value) :: rest
    else (found, value) :: alter key change rest

/-- The entries with all values changed. -/
def mapValues (change : Value → Value) (entries : Entries) : Entries :=
  entries.map fun (key, value) => (key, change value)

/-! ## What a look-up finds -/

theorem texts_append : texts (before ++ after) = texts before ++ texts after :=
  List.filterMap_append

theorem texts_congr {others : Entries} (same : keys entries = keys others) :
    texts entries = texts others := by
  have of_keys : ∀ entries : Entries, texts entries = (keys entries).filterMap fun key =>
      match key with
      | .text name => some name
      | _ => none := by
    intro entries
    rw [keys, List.filterMap_map]
    rfl
  rw [of_keys, of_keys, same]

theorem texts_text_cons : texts ((.text key, value) :: after) = key :: texts after := rfl

theorem sameKey_eq_false_of_not_mem {found : Scalar} {rest : Entries}
    (absent : key ∉ texts ((found, value) :: rest)) :
    found.sameKey (.text key) = false ∧ key ∉ texts rest := by
  constructor
  · rw [Bool.eq_false_iff, ne_eq, Scalar.sameKey_text_iff]
    rintro rfl
    exact absent List.mem_cons_self
  · intro member
    refine absent ?_
    rw [show (found, value) :: rest = [(found, value)] ++ rest from rfl, texts_append]
    exact List.mem_append_right _ member

/-- A look-up finds the first entry under the key. -/
theorem exists_split_of_get? (found : get? entries key = some value) :
    ∃ before after, entries = before ++ (.text key, value) :: after ∧ key ∉ texts before := by
  induction entries with
  | nil => cases found
  | cons entry rest inductionHypothesis =>
      obtain ⟨first, content⟩ := entry
      unfold get? find? at found
      by_cases same : first.sameKey (.text key)
      · rw [if_pos same] at found
        obtain rfl := Option.some.inj found
        rw [Scalar.sameKey_text_iff] at same
        exact ⟨[], rest, by rw [same]; rfl, List.not_mem_nil⟩
      · rw [if_neg same] at found
        obtain ⟨before, after, rest_eq, absent⟩ := inductionHypothesis found
        refine ⟨(first, content) :: before, after, by rw [rest_eq]; rfl, ?_⟩
        intro member
        rw [show (first, content) :: before = [(first, content)] ++ before from rfl,
          texts_append, List.mem_append] at member
        rcases member with isFirst | later
        · cases first <;> simp_all [texts, Scalar.sameKey]
        · exact absent later

theorem get?_split (absent : key ∉ texts before) :
    get? (before ++ (.text key, value) :: after) key = some value := by
  induction before with
  | nil => simp [get?, find?, Scalar.sameKey]
  | cons entry rest inductionHypothesis =>
      obtain ⟨different, absent⟩ := sameKey_eq_false_of_not_mem absent
      rw [List.cons_append, get?, find?, if_neg (by rw [different]; simp)]
      exact inductionHypothesis absent

theorem insert_split (absent : key ∉ texts before) (new : Value) :
    insert (.text key) new (before ++ (.text key, value) :: after) =
      before ++ (.text key, new) :: after := by
  induction before with
  | nil => simp [insert, Scalar.sameKey]
  | cons entry rest inductionHypothesis =>
      obtain ⟨different, absent⟩ := sameKey_eq_false_of_not_mem absent
      rw [List.cons_append, insert, if_neg (by rw [different]; simp), inductionHypothesis absent,
        List.cons_append]

theorem alter_split (absent : key ∉ texts before) :
    alter key change (before ++ (.text key, value) :: after) =
      before ++ (.text key, change value) :: after := by
  induction before with
  | nil => simp [alter, Scalar.sameKey]
  | cons entry rest inductionHypothesis =>
      obtain ⟨different, absent⟩ := sameKey_eq_false_of_not_mem absent
      rw [List.cons_append, alter, if_neg (by rw [different]; simp), inductionHypothesis absent,
        List.cons_append]

/-- Where one value is replaced, a look-up finds it or what it would have found before. -/
theorem get?_replaced {found : Scalar} {new : Value}
    (isThere : get? (before ++ (found, new) :: after) key = some value) :
    get? (before ++ (found, value') :: after) key = some value ∨
      value = new ∧ get? (before ++ (found, value') :: after) key = some value' := by
  induction before with
  | nil =>
      rw [List.nil_append, get?, find?] at isThere ⊢
      by_cases same : found.sameKey (.text key)
      · rw [if_pos same] at isThere ⊢
        exact .inr ⟨(Option.some.inj isThere).symm, rfl⟩
      · rw [if_neg same] at isThere ⊢
        exact .inl isThere
  | cons entry rest inductionHypothesis =>
      rw [List.cons_append, get?, find?] at isThere ⊢
      by_cases same : entry.1.sameKey (.text key)
      · rw [if_pos same] at isThere ⊢
        exact .inl isThere
      · rw [if_neg same] at isThere ⊢
        exact inductionHypothesis isThere

theorem mem_texts_iff : key ∈ texts entries ↔ ∃ value, get? entries key = some value := by
  constructor
  · intro member
    induction entries with
    | nil => cases member
    | cons entry rest inductionHypothesis =>
        obtain ⟨first, content⟩ := entry
        unfold get? find?
        by_cases same : first.sameKey (.text key)
        · exact ⟨content, by rw [if_pos same]⟩
        · rw [if_neg same]
          refine inductionHypothesis ?_
          rw [show (first, content) :: rest = [(first, content)] ++ rest from rfl, texts_append,
            List.mem_append] at member
          rcases member with isFirst | later
          · cases first <;> simp_all [texts, Scalar.sameKey]
          · exact later
  · rintro ⟨value, found⟩
    obtain ⟨before, after, rfl, -⟩ := exists_split_of_get? found
    rw [texts_append, texts_text_cons]
    simp

theorem hasKey_text_iff : hasKey entries (.text key) = true ↔ .text key ∈ keys entries := by
  induction entries with
  | nil => simp [hasKey, find?, keys]
  | cons entry rest inductionHypothesis =>
      obtain ⟨first, content⟩ := entry
      rw [hasKey, find?, keys, List.map_cons, List.mem_cons]
      by_cases same : first.sameKey (.text key)
      · rw [if_pos same, Scalar.sameKey_text_iff.mp same]
        simp
      · rw [if_neg same]
        have different : Scalar.text key ≠ first := fun equal =>
          same (Scalar.sameKey_text_iff.mpr equal.symm)
        simp only [different, false_or]
        exact inductionHypothesis

/-! ## Changing what is under a key -/

theorem alter_of_get?_eq_none (absent : get? entries key = none) :
    alter key change entries = entries := by
  induction entries with
  | nil => rfl
  | cons entry rest inductionHypothesis =>
      unfold get? find? at absent
      by_cases same : entry.1.sameKey (.text key)
      · rw [if_pos same] at absent
        cases absent
      · rw [if_neg same] at absent
        rw [alter, if_neg same, inductionHypothesis absent]

theorem insert_eq_alter (isThere : get? entries key = some value) (new : Value) :
    insert (.text key) new entries = alter key (fun _ => new) entries := by
  obtain ⟨before, after, rfl, absent⟩ := exists_split_of_get? isThere
  rw [insert_split absent, alter_split absent]

theorem alter_eq_self (fixed : ∀ value, get? entries key = some value → change value = value) :
    alter key change entries = entries := by
  cases found : get? entries key with
  | none => exact alter_of_get?_eq_none found
  | some value =>
      obtain ⟨before, after, rfl, absent⟩ := exists_split_of_get? found
      rw [alter_split absent, fixed value found]

@[simp] theorem texts_alter : texts (alter key change entries) = texts entries := by
  cases found : get? entries key with
  | none => rw [alter_of_get?_eq_none found]
  | some value =>
      obtain ⟨before, after, rfl, absent⟩ := exists_split_of_get? found
      rw [alter_split absent, texts_append, texts_append, texts_text_cons, texts_text_cons]

theorem get?_alter_self : get? (alter key change entries) key = (get? entries key).map change := by
  cases found : get? entries key with
  | none => rw [alter_of_get?_eq_none found, found, Option.map_none]
  | some value =>
      obtain ⟨before, after, rfl, absent⟩ := exists_split_of_get? found
      rw [alter_split absent, get?_split absent, Option.map_some]

theorem get?_alter_of_ne (different : other ≠ key) :
    get? (alter key change entries) other = get? entries other := by
  induction entries with
  | nil => rfl
  | cons entry rest inductionHypothesis =>
      obtain ⟨first, content⟩ := entry
      by_cases same : first.sameKey (.text key)
      · have unlike : ¬ first.sameKey (.text other) := by
          rw [Scalar.sameKey_text_iff] at same ⊢
          rw [same]
          exact fun equal => different (Scalar.text.inj equal).symm
        rw [alter, if_pos same, get?, find?, if_neg unlike, get?, find?, if_neg unlike]
      · rw [alter, if_neg same, get?, find?, get?, find?]
        split
        · rfl
        · exact inductionHypothesis

theorem alter_alter_self :
    alter key change (alter key change' entries) = alter key (change ∘ change') entries := by
  cases found : get? entries key with
  | none => rw [alter_of_get?_eq_none found, alter_of_get?_eq_none found,
      alter_of_get?_eq_none found]
  | some value =>
      obtain ⟨before, after, rfl, absent⟩ := exists_split_of_get? found
      rw [alter_split absent, alter_split absent, alter_split absent, Function.comp_apply]

theorem alter_comm (different : other ≠ key) :
    alter key change (alter other change' entries) =
      alter other change' (alter key change entries) := by
  induction entries with
  | nil => rfl
  | cons entry rest inductionHypothesis =>
      obtain ⟨first, content⟩ := entry
      by_cases isKey : first.sameKey (.text key)
      · have notOther : ¬ first.sameKey (.text other) := by
          rw [Scalar.sameKey_text_iff] at isKey ⊢
          rw [isKey]
          exact fun equal => different (Scalar.text.inj equal).symm
        simp only [alter, if_pos isKey, if_neg notOther]
      · by_cases isOther : first.sameKey (.text other)
        · simp only [alter, if_neg isKey, if_pos isOther]
        · simp only [alter, if_neg isKey, if_neg isOther, inductionHypothesis]

/-! ## Changing all values -/

theorem mapValues_congr
    (agree : ∀ key value, (key, value) ∈ entries → change value = change' value) :
    mapValues change entries = mapValues change' entries :=
  List.map_congr_left fun (key, value) member => congrArg (Prod.mk key) (agree key value member)

@[simp] theorem texts_mapValues : texts (mapValues change entries) = texts entries := by
  simp only [texts, mapValues, List.filterMap_map]
  rfl

theorem get?_mapValues : get? (mapValues change entries) key = (get? entries key).map change := by
  induction entries with
  | nil => rfl
  | cons entry rest inductionHypothesis =>
      rw [mapValues, List.map_cons, get?, find?, get?, find?]
      split
      · rfl
      · exact inductionHypothesis

theorem mapValues_split :
    mapValues change (before ++ (.text key, value) :: after) =
      mapValues change before ++ (.text key, change value) :: mapValues change after := by
  simp [mapValues]

/-! ## Entries under texts -/

/-- Every key is a text, and every value is good. -/
def AreNamed (good : Value → Prop) (entries : Entries) : Prop :=
  ∀ entry ∈ entries, (∃ name, entry.1 = .text name) ∧ good entry.2

namespace AreNamed

variable {good : Value → Prop} {others : Entries} {found : Scalar}

theorem nil : AreNamed good [] :=
  fun _ member => absurd member List.not_mem_nil

theorem single (name : String) (isGood : good value) : AreNamed good [(.text name, value)] :=
  List.forall_mem_singleton.mpr ⟨⟨name, rfl⟩, isGood⟩

theorem append (named : AreNamed good entries) (named' : AreNamed good others) :
    AreNamed good (entries ++ others) :=
  fun entry member => (List.mem_append.mp member).elim (named entry) (named' entry)

theorem insert (named : AreNamed good entries) (isText : ∃ name, found = .text name)
    (isGood : good value) : AreNamed good (Entries.insert found value entries) := by
  induction entries with
  | nil => exact List.forall_mem_singleton.mpr ⟨isText, isGood⟩
  | cons entry rest inductionHypothesis =>
      obtain ⟨first, more⟩ := List.forall_mem_cons.mp named
      rw [Entries.insert]
      split
      · exact List.forall_mem_cons.mpr ⟨⟨first.1, isGood⟩, more⟩
      · exact List.forall_mem_cons.mpr ⟨first, inductionHypothesis more⟩

theorem ofList (named : AreNamed good entries) : AreNamed good (Entries.ofList entries) := by
  have all : ∀ built, AreNamed good built → AreNamed good (insertAll built entries) := by
    induction entries with
    | nil => exact fun _ built => built
    | cons entry rest inductionHypothesis =>
        obtain ⟨first, more⟩ := List.forall_mem_cons.mp named
        exact fun _ built => inductionHypothesis more _ (built.insert first.1 first.2)
  exact all [] nil

theorem keys_eq (named : AreNamed good entries) : keys entries = (texts entries).map .text := by
  induction entries with
  | nil => rfl
  | cons entry rest inductionHypothesis =>
      obtain ⟨⟨⟨name, isName⟩, -⟩, more⟩ := List.forall_mem_cons.mp named
      obtain ⟨key, value⟩ := entry
      obtain rfl : key = .text name := isName
      exact congrArg (.text name :: ·) (inductionHypothesis more)

/-- What a look-up finds in them is good. -/
theorem of_get? (named : AreNamed good entries) (isThere : get? entries key = some value) :
    good value := by
  obtain ⟨before, after, rfl, -⟩ := exists_split_of_get? isThere
  exact (named (.text key, value) (by simp)).2

end AreNamed
end Entries
end Provenance.Data
