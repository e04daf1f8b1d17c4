import Provenance.Proofs.Data.Nested
import Provenance.Proofs.Settings.Load

/-!
Contract: what a settings file can be read as, whatever its octets are.

Owns:
- `Json.hasTextKeys_of_read` and `Toml.exists_dict_of_read`: the keys of what is read are texts, and
  a TOML document is a dictionary;
- `saysUnusable_of_readFrom`: a JSON or TOML file that cannot be read is unusable, and nothing else;
- `exists_plain_of_readFrom`: what is read from one shares nothing and has text keys.

Does **not** own: YAML, whose keys may be anything and whose reading fails in more ways.
-/

set_option autoImplicit false

namespace Provenance

open Data (Scalar Value Entries Shared)
open Failure (Fault)
open Settings (exists_of_bind_eq_ok exists_of_map_eq_ok)

/-- The dictionaries in a value that are reached through dictionaries have text keys.  What is inside a
list is not reached so, and may be anything. -/
def Data.Value.HasTextKeys (value : Value) : Prop :=
  value.isKeyed fun _ => true

/-! ## JSON -/

namespace Json

variable {fuel : Nat} {text rest : List Char} {value : Value}

theorem exists_scalar_of_readNumber {negative : Bool}
    (reads : readNumber negative text = .ok (some (value, rest))) :
    ∃ scalar, value = .scalar scalar := by
  unfold readNumber at reads
  split at reads
  · cases reads
  · dsimp only at reads
    split at reads
    · split at reads
      · cases reads
      · obtain ⟨rfl, -⟩ := Prod.mk.inj (Option.some.inj (Except.ok.inj reads))
        exact ⟨_, rfl⟩
    · obtain ⟨rfl, -⟩ := Prod.mk.inj (Option.some.inj (Except.ok.inj reads))
      exact ⟨_, rfl⟩

theorem exists_scalar_of_readLiteral? (reads : readLiteral? text = some (value, rest)) :
    ∃ scalar, value = .scalar scalar := by
  obtain ⟨⟨word, literal⟩, member, isFound⟩ := List.exists_of_findSome?_eq_some reads
  have scalars : ∀ literal ∈ literals, ∃ scalar, literal.2 = .scalar scalar := by
    simp [literals]
  dsimp only at isFound
  split at isFound
  · obtain ⟨rfl, -⟩ := Prod.mk.inj (Option.some.inj isFound)
    exact scalars _ member
  · cases isFound

theorem exists_scalar_of_readSimple (reads : readSimple text = .ok (value, rest)) :
    ∃ scalar, value = .scalar scalar := by
  unfold readSimple at reads
  split at reads
  · next found isLiteral =>
      obtain rfl := Except.ok.inj reads
      exact exists_scalar_of_readLiteral? isLiteral
  · dsimp only at reads
    split at reads
    · cases reads
    · next found isNumber =>
        obtain rfl := Except.ok.inj reads
        split at isNumber <;> exact exists_scalar_of_readNumber isNumber
    · cases reads

mutual

theorem hasTextKeys_of_readValue : ∀ {fuel : Nat} {text rest : List Char} {value : Value},
    readValue fuel text = .ok (value, rest) → value.HasTextKeys
  | 0, _, _, _, reads => by cases reads
  | fuel + 1, text, rest, value, reads => by
      rw [readValue.eq_def] at reads
      dsimp only at reads
      split at reads
      · obtain ⟨found, -, returns⟩ := exists_of_bind_eq_ok reads
        obtain ⟨rfl, -⟩ := Prod.mk.inj (Except.ok.inj returns)
        rfl
      · split at reads
        · obtain ⟨rfl, -⟩ := Prod.mk.inj (Except.ok.inj reads)
          rfl
        · obtain ⟨found, -, returns⟩ := exists_of_bind_eq_ok reads
          obtain ⟨rfl, -⟩ := Prod.mk.inj (Except.ok.inj returns)
          rfl
      · split at reads
        · obtain ⟨rfl, -⟩ := Prod.mk.inj (Except.ok.inj reads)
          rfl
        · obtain ⟨found, readsInner, returns⟩ := exists_of_bind_eq_ok reads
          obtain ⟨rfl, -⟩ := Prod.mk.inj (Except.ok.inj returns)
          exact Value.isKeyed_dict_iff.mpr (areNamed_of_readEntries readsInner).ofList
      · obtain ⟨scalar, rfl⟩ := exists_scalar_of_readSimple reads
        rfl

theorem areNamed_of_readEntries : ∀ {fuel : Nat} {text rest : List Char} {entries : Entries},
    readEntries fuel text = .ok (entries, rest) → entries.AreNamed Value.HasTextKeys
  | 0, _, _, _, reads => by cases reads
  | fuel + 1, text, rest, entries, reads => by
      rw [readEntries] at reads
      obtain ⟨⟨name, inner⟩, -, reads⟩ := exists_of_bind_eq_ok reads
      obtain ⟨⟨value, after⟩, readsValue, reads⟩ := exists_of_bind_eq_ok reads
      have first : Entries.AreNamed Value.HasTextKeys [(.text name, value)] :=
        .single name (hasTextKeys_of_readValue readsValue)
      dsimp only at reads
      split at reads
      · obtain ⟨rfl, -⟩ := Prod.mk.inj (Except.ok.inj reads)
        exact first
      · obtain ⟨found, readsMore, returns⟩ := exists_of_bind_eq_ok reads
        obtain ⟨rfl, -⟩ := Prod.mk.inj (Except.ok.inj returns)
        exact first.append (areNamed_of_readEntries readsMore)
      · cases reads

end

theorem hasTextKeys_of_read {text : String} (reads : read text = .ok value) :
    value.HasTextKeys := by
  unfold read at reads
  split at reads
  · next found readsAll =>
      obtain rfl := Except.ok.inj reads
      unfold readCharacters at readsAll
      have ofWhole : ∀ {text : List Char}, readCharacters.readWhole text = .ok found →
          found.HasTextKeys := by
        intro text readsWhole
        obtain ⟨⟨value, rest⟩, readsValue, ends⟩ := exists_of_bind_eq_ok readsWhole
        dsimp only at ends
        split at ends
        · obtain rfl := Except.ok.inj ends
          exact hasTextKeys_of_readValue readsValue
        · cases ends
      split at readsAll
      · split at readsAll
        · cases readsAll
        · exact ofWhole readsAll
      · exact ofWhole readsAll
  · cases reads

/-- A text that is no JSON is bad data, whatever else it is. -/
theorem isBadData_of_read {text : String} {fault : Fault} (fails : read text = .error fault) :
    fault.isBadData = true := by
  unfold read at fails
  split at fails
  · cases fails
  · next error _ =>
      obtain rfl := Except.error.inj fails
      cases error <;> rfl

end Json

/-! ## TOML -/

namespace Toml

variable {text rest : List Char} {entries after : Entries} {value : Value}

/-- A change that keeps keys texts does so wherever the table is that it changes. -/
theorem areNamed_of_changeTable {entersArrays : Bool} {change : Entries → Option Entries}
    (keeps : ∀ {entries after : Entries}, entries.AreNamed Value.HasTextKeys →
      change entries = some after → after.AreNamed Value.HasTextKeys) (path : KeyPath)
    (named : entries.AreNamed Value.HasTextKeys)
    (changes : changeTable entersArrays change path entries = some after) :
    after.AreNamed Value.HasTextKeys := by
  induction path generalizing entries after with
  | nil => exact keeps named changes
  | cons key rest inductionHypothesis =>
      rw [changeTable] at changes
      split at changes
      · obtain ⟨inner, changesInner, rfl⟩ := Option.map_eq_some_iff.mp changes
        exact named.insert ⟨key, rfl⟩
          (Value.isKeyed_dict_iff.mpr (inductionHypothesis .nil changesInner))
      · next table isThere =>
          obtain ⟨inner, changesInner, rfl⟩ := Option.map_eq_some_iff.mp changes
          have namedTable := Value.isKeyed_dict_iff.mp (named.of_get? isThere)
          exact named.insert ⟨key, rfl⟩
            (Value.isKeyed_dict_iff.mpr (inductionHypothesis namedTable changesInner))
      · split at changes
        · split at changes
          · obtain ⟨inner, -, rfl⟩ := Option.map_eq_some_iff.mp changes
            exact named.insert ⟨key, rfl⟩ rfl
          · cases changes
        · cases changes
      · cases changes

theorem areNamed_of_addEntry {key : String} (isKeyed : value.HasTextKeys)
    (named : entries.AreNamed Value.HasTextKeys) (adds : addEntry key value entries = some after) :
    after.AreNamed Value.HasTextKeys := by
  unfold addEntry at adds
  split at adds
  · cases adds
  · obtain rfl := Option.some.inj adds
    exact named.insert ⟨key, rfl⟩ isKeyed

theorem areNamed_of_addItem {key : String} (named : entries.AreNamed Value.HasTextKeys)
    (adds : addItem key entries = some after) : after.AreNamed Value.HasTextKeys := by
  unfold addItem at adds
  split at adds
  · obtain rfl := Option.some.inj adds
    exact named.insert ⟨key, rfl⟩ rfl
  · obtain rfl := Option.some.inj adds
    exact named.insert ⟨key, rfl⟩ rfl
  · cases adds

mutual

theorem hasTextKeys_of_readValue : ∀ {fuel : Nat} {text rest : List Char} {value : Value},
    readValue fuel text = .ok (value, rest) → value.HasTextKeys
  | 0, _, _, _, reads => by cases reads
  | fuel + 1, text, rest, value, reads => by
      rw [readValue.eq_def] at reads
      dsimp only at reads
      split at reads
      · obtain ⟨inner, -, reads⟩ := exists_of_bind_eq_ok reads
        split at reads
        · obtain ⟨rfl, -⟩ := Prod.mk.inj (Except.ok.inj reads)
          rfl
        · obtain ⟨found, -, returns⟩ := exists_of_bind_eq_ok reads
          obtain ⟨rfl, -⟩ := Prod.mk.inj (Except.ok.inj returns)
          rfl
      · split at reads
        · obtain ⟨rfl, -⟩ := Prod.mk.inj (Except.ok.inj reads)
          rfl
        · obtain ⟨found, readsPairs, returns⟩ := exists_of_bind_eq_ok reads
          obtain ⟨rfl, -⟩ := Prod.mk.inj (Except.ok.inj returns)
          exact Value.isKeyed_dict_iff.mpr (areNamed_of_readPairs .nil readsPairs)
      · obtain ⟨found, -, returns⟩ := exists_of_map_eq_ok reads
        obtain ⟨rfl, -⟩ := Prod.mk.inj returns
        rfl

theorem areNamed_of_readPairs : ∀ {fuel : Nat} {frozen : List KeyPath} {entries found : Entries}
    {text rest : List Char}, entries.AreNamed Value.HasTextKeys →
      readPairs fuel frozen entries text = .ok (found, rest) → found.AreNamed Value.HasTextKeys
  | 0, _, _, _, _, _, _, reads => by cases reads
  | fuel + 1, frozen, entries, found, text, rest, named, reads => by
      rw [readPairs] at reads
      obtain ⟨⟨path, afterKey⟩, -, reads⟩ := exists_of_bind_eq_ok reads
      dsimp only at reads
      split at reads
      · obtain ⟨afterSign, -, reads⟩ := exists_of_bind_eq_ok reads
        obtain ⟨⟨value, afterValue⟩, readsValue, reads⟩ := exists_of_bind_eq_ok reads
        dsimp only at reads
        split at reads
        · cases reads
        split at reads
        · cases reads
        · next changed changes =>
            have namedChanged : changed.AreNamed Value.HasTextKeys :=
              areNamed_of_changeTable
                (areNamed_of_addEntry (hasTextKeys_of_readValue readsValue)) _ named changes
            split at reads
            · obtain ⟨rfl, -⟩ := Prod.mk.inj (Except.ok.inj reads)
              exact namedChanged
            · exact areNamed_of_readPairs namedChanged reads
            · cases reads
      · cases reads

end

/-! ### Statements -/

variable {document later : Document}

theorem areNamed_of_openTable {path : KeyPath}
    (named : document.entries.AreNamed Value.HasTextKeys)
    (opens : document.openTable path = .ok later) :
    later.entries.AreNamed Value.HasTextKeys := by
  unfold Document.openTable at opens
  dsimp only at opens
  split at opens
  · cases opens
  split at opens
  · cases opens
  · next changes =>
      obtain rfl := Except.ok.inj opens
      refine areNamed_of_changeTable (fun named same => ?_) path named changes
      obtain rfl := Option.some.inj same
      exact named

theorem areNamed_of_openItem {path : KeyPath}
    (named : document.entries.AreNamed Value.HasTextKeys)
    (opens : document.openItem path = .ok later) :
    later.entries.AreNamed Value.HasTextKeys := by
  unfold Document.openItem at opens
  dsimp only at opens
  split at opens
  · cases opens
  split at opens
  · cases opens
  · next changes =>
      obtain rfl := Except.ok.inj opens
      exact areNamed_of_changeTable areNamed_of_addItem _ named changes

theorem areNamed_of_addPair {path : KeyPath}
    (named : document.entries.AreNamed Value.HasTextKeys) (isKeyed : value.HasTextKeys)
    (adds : document.addPair path value = .ok later) :
    later.entries.AreNamed Value.HasTextKeys := by
  unfold Document.addPair at adds
  dsimp only at adds
  split at adds
  · cases adds
  split at adds
  · cases adds
  split at adds
  · cases adds
  · next changes =>
      obtain rfl := Except.ok.inj adds
      exact areNamed_of_changeTable (areNamed_of_addEntry isKeyed) _ named changes

theorem eq_ok_of_placed {α : Type} {result : Except String α} {found : α}
    (places : placed rest result = .ok found) : result = .ok found := by
  cases result with
  | ok value => exact congrArg _ (Except.ok.inj places)
  | error reason => cases places

theorem areNamed_of_readStatement (named : document.entries.AreNamed Value.HasTextKeys)
    (reads : readStatement document text = .ok (later, rest)) :
    later.entries.AreNamed Value.HasTextKeys := by
  unfold readStatement at reads
  split at reads
  · obtain ⟨⟨path, afterKey⟩, -, reads⟩ := exists_of_bind_eq_ok reads
    obtain ⟨opened, opens, reads⟩ := exists_of_bind_eq_ok reads
    split at reads
    · obtain ⟨rfl, -⟩ := Prod.mk.inj (Except.ok.inj reads)
      exact areNamed_of_openItem named (eq_ok_of_placed opens)
    · cases reads
  · obtain ⟨⟨path, afterKey⟩, -, reads⟩ := exists_of_bind_eq_ok reads
    obtain ⟨opened, opens, reads⟩ := exists_of_bind_eq_ok reads
    split at reads
    · obtain ⟨rfl, -⟩ := Prod.mk.inj (Except.ok.inj reads)
      exact areNamed_of_openTable named (eq_ok_of_placed opens)
    · cases reads
  · split at reads
    · obtain ⟨⟨path, afterKey⟩, -, reads⟩ := exists_of_bind_eq_ok reads
      dsimp only at reads
      split at reads
      · obtain ⟨afterSign, -, reads⟩ := exists_of_bind_eq_ok reads
        obtain ⟨⟨value, afterValue⟩, readsValue, reads⟩ := exists_of_bind_eq_ok reads
        obtain ⟨added, adds, returns⟩ := exists_of_bind_eq_ok reads
        obtain ⟨rfl, -⟩ := Prod.mk.inj (Except.ok.inj returns)
        exact areNamed_of_addPair named (hasTextKeys_of_readValue readsValue) (eq_ok_of_placed adds)
      · cases reads
    · split at reads
      · obtain ⟨rfl, -⟩ := Prod.mk.inj (Except.ok.inj reads)
        exact named
      · cases reads
  · obtain ⟨rfl, -⟩ := Prod.mk.inj (Except.ok.inj reads)
    exact named

theorem areNamed_of_readStatements {fuel : Nat}
    (named : document.entries.AreNamed Value.HasTextKeys)
    (reads : readStatements fuel document text = .ok later) :
    later.entries.AreNamed Value.HasTextKeys := by
  induction fuel generalizing document text with
  | zero =>
      obtain rfl := Except.ok.inj reads
      exact named
  | succ fuel inductionHypothesis =>
      rw [readStatements] at reads
      split at reads
      · obtain rfl := Except.ok.inj reads
        exact named
      · exact inductionHypothesis named reads
      · obtain ⟨⟨next, rest⟩, readsOne, reads⟩ := exists_of_bind_eq_ok reads
        obtain ⟨behind, -, reads⟩ := exists_of_bind_eq_ok reads
        have namedNext := areNamed_of_readStatement named readsOne
        split at reads
        · obtain rfl := Except.ok.inj reads
          exact namedNext
        · exact inductionHypothesis namedNext reads
        · cases reads

/-- A TOML document is a table, and its keys are texts. -/
theorem exists_dict_of_read {document : String} (reads : read document = .ok value) :
    ∃ entries, value = .dict entries ∧ value.HasTextKeys := by
  unfold read at reads
  dsimp only at reads
  split at reads
  · next readsAll =>
      obtain rfl := Except.ok.inj reads
      exact ⟨_, rfl, Value.isKeyed_dict_iff.mpr (areNamed_of_readStatements .nil readsAll)⟩
  · cases reads

theorem isBadData_of_read {document : String} {fault : Fault}
    (fails : read document = .error fault) : fault.isBadData = true := by
  unfold read at fails
  dsimp only at fails
  split at fails
  · cases fails
  · obtain rfl := Except.error.inj fails
    rfl

end Toml

/-! ## Files -/

namespace Settings

variable {dialect : Dialect} {octets : List UInt8} {file : Shared} {fault : Fault}

theorem isBadData_of_textOf (fails : World.Disk.textOf octets = .error fault) :
    fault.isBadData = true := by
  unfold World.Disk.textOf at fails
  split at fails
  · cases fails
  · obtain rfl := Except.error.inj fails
    rfl

/-- Octets that are no document are bad data, in JSON and in TOML. -/
theorem Dialect.isBadData_of_read (textual : dialect ≠ .yaml)
    (fails : dialect.read octets = .error fault) : fault.isBadData = true := by
  cases dialect with
  | json =>
      rcases eq_error_of_bind fails with noText | ⟨text, -, noDocument⟩
      · exact isBadData_of_textOf noText
      · exact Json.isBadData_of_read (eq_error_of_map noDocument)
  | toml =>
      unfold Dialect.read at fails
      dsimp only at fails
      split at fails
      · exact Toml.isBadData_of_read (eq_error_of_map fails)
      · obtain rfl := Except.error.inj fails
        rfl
  | yaml => exact absurd rfl textual

/-- What is read from JSON or TOML shares nothing, and its keys are texts. -/
theorem Dialect.exists_plain_of_read (textual : dialect ≠ .yaml)
    (reads : dialect.read octets = .ok file) :
    ∃ value : Value, file = .plain value ∧ value.HasTextKeys ∧
      (dialect = .toml → ∃ entries, value = .dict entries) := by
  cases dialect with
  | json =>
      obtain ⟨text, -, parses⟩ := exists_of_bind_eq_ok reads
      obtain ⟨value, readsValue, rfl⟩ := exists_of_map_eq_ok parses
      exact ⟨value, rfl, Json.hasTextKeys_of_read readsValue, fun isToml => by cases isToml⟩
  | toml =>
      unfold Dialect.read at reads
      dsimp only at reads
      split at reads
      · obtain ⟨value, readsValue, rfl⟩ := exists_of_map_eq_ok reads
        obtain ⟨entries, isDict, isKeyed⟩ := Toml.exists_dict_of_read readsValue
        exact ⟨value, rfl, isKeyed, fun _ => ⟨entries, isDict⟩⟩
      · cases reads
  | yaml => exact absurd rfl textual

variable {Time : Type} {world : World Time} {path : String} {failure : Failure}

theorem saysUnusable_of_readOctets
    (fails : ((World.Disk.readOctets path).runIn world).1 = .error failure) :
    saysUnusable failure = true := by
  unfold World.Disk.readOctets World.Disk.checked at fails
  split at fails
  · obtain rfl := Except.error.inj fails
    rfl
  · rw [Program.runIn_bind_of_ok (Program.runIn_pure () world),
      Program.runIn_bind_of_ok (Program.runIn_world world)] at fails
    cases reads : world.files.read world.cwd path with
    | ok octets =>
        rw [reads] at fails
        cases fails
    | error refusal =>
        rw [reads] at fails
        obtain rfl := Except.error.inj fails
        rfl

/-- What has been read is what the dialect of the path makes of the octets. -/
theorem exists_octets_of_readFrom {result : Except Failure Shared}
    (comesTo : ((readFrom path).runIn world).1 = result) :
    (∃ failure, result = .error failure ∧ saysUnusable failure = true) ∨
      ∃ octets, result = ((Dialect.ofPath path).read octets).mapError Failure.fault := by
  unfold readFrom at comesTo
  rw [Program.runIn_bind] at comesTo
  cases reads : (World.Disk.readOctets path).runIn world with
  | mk outcome after =>
      rw [reads] at comesTo
      cases outcome with
      | error failure =>
          exact .inl ⟨failure, comesTo.symm, saysUnusable_of_readOctets (by rw [reads])⟩
      | ok octets =>
          have found : ((Program.ofFault ((Dialect.ofPath path).read octets)).runIn after).1 =
              result := comesTo
          refine .inr ⟨octets, found.symm.trans ?_⟩
          cases (Dialect.ofPath path).read octets <;> rfl

theorem saysUnusable_of_isBadData (isBad : fault.isBadData = true) :
    saysUnusable (.fault fault) = true := by
  unfold saysUnusable
  split
  · rfl
  · next other same =>
      obtain rfl := Failure.fault.inj same
      rw [isBad, Bool.or_true]
  · next isProblem => cases isProblem

/-- A JSON or TOML file that cannot be read is unusable. -/
theorem saysUnusable_of_readFrom (textual : Dialect.ofPath path ≠ .yaml)
    (fails : ((readFrom path).runIn world).1 = .error failure) : saysUnusable failure = true := by
  rcases exists_octets_of_readFrom fails with ⟨other, same, unusable⟩ | ⟨octets, same⟩
  · obtain rfl := Except.error.inj same
    exact unusable
  · cases reads : (Dialect.ofPath path).read octets with
    | ok file =>
        rw [reads] at same
        cases same
    | error fault =>
        rw [reads] at same
        obtain rfl := Except.error.inj same
        exact saysUnusable_of_isBadData (Dialect.isBadData_of_read textual reads)

/-- What is read from a JSON or TOML file shares nothing, and its keys are texts. -/
theorem exists_plain_of_readFrom (textual : Dialect.ofPath path ≠ .yaml)
    (reads : ((readFrom path).runIn world).1 = .ok file) :
    ∃ value : Value, file = .plain value ∧ value.HasTextKeys ∧
      (Dialect.ofPath path = .toml → ∃ entries, value = .dict entries) := by
  rcases exists_octets_of_readFrom reads with ⟨other, same, -⟩ | ⟨octets, same⟩
  · cases same
  · cases readsOctets : (Dialect.ofPath path).read octets with
    | ok found =>
        rw [readsOctets] at same
        obtain rfl := Except.ok.inj same
        exact Dialect.exists_plain_of_read textual readsOctets
    | error fault =>
        rw [readsOctets] at same
        cases same

end Settings
end Provenance
