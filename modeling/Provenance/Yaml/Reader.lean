import Provenance.Data.SetOrder
import Provenance.Data.Shared
import Provenance.Yaml.Node
import Provenance.Yaml.Scalar

/-!
Contract: YAML documents read into settings.

Owns:
- `Maker`, what is made of the nodes of each tag;
- `Construction`, the nodes of a document beside the collections made of them so far;
- `flatten`, a mapping with its merged mappings written out;
- `read`, the value of the one document of a text.

Does **not** own: the values of scalars, and tags outside the language, which are
refused.

## Rounds

A collection is made empty where it is met and filled in the next round, after all
that is met in this round.  So a collection may be a part of itself, and what is wrong
in an outer collection counts before what is wrong inside the inner ones.

## Merged mappings

The entries of a mapping under `<<` stand before the mapping's own, so an own entry
wins; of a list of mappings an earlier one wins over a later one.
-/

set_option autoImplicit false

namespace Provenance.Yaml

open Data (Scalar Value Entries)
open Failure (Fault)

def coreName? (tag : String) : Option String :=
  if Text.startsWith coreStart tag then some (String.ofList (tag.toList.drop coreStart.length))
  else none

/-- What is made of the nodes of a tag. -/
inductive Maker where
  | scalar (read : List Char → Except Complaint Scalar)
  /-- A moment, which is read off a scalar node only. -/
  | moment
  | list
  | pairs
  | dict
  | set

/-- What is made of the nodes of a tag, if anything is. -/
def Maker.ofTag? (tag : String) : Option Maker :=
  match coreName? tag with
  | some "null" => some (.scalar fun _ => .ok .null)
  | some "bool" => some (.scalar boolOf)
  | some "int" => some (.scalar intOf)
  | some "float" => some (.scalar floatOf)
  | some "binary" => some (.scalar binaryOf)
  | some "str" => some (.scalar fun text => .ok (.text (String.ofList text)))
  | some "timestamp" => some .moment
  | some "seq" => some .list
  | some "omap" => some .pairs
  | some "pairs" => some .pairs
  | some "map" => some .dict
  | some "set" => some .set
  | _ => none

/-- The nodes of a document with the values made of them so far. -/
structure Construction where
  nodes : Array Node
  cells : Data.Cells
  /-- The nodes whose collections are filled in the next round, the last one first. -/
  waiting : List Nat := []
  /-- Whether a collection has been begun, by the numbers of the nodes. -/
  begun : Array Bool

/-- Steps of a construction, which a complaint ends. -/
abbrev Constructing (α : Type) : Type := StateT Construction (Except Complaint) α

namespace Construction

def refuse {α : Type} (reason : String) : Constructing α :=
  throw (.malformed reason)

def nodeAt (number : Nat) : Constructing Node := do
  let construction ← get
  pure (construction.nodes[number]?.getD .empty)

/-- Puts a node in the place of the one with a number. -/
def put (number : Nat) (node : Node) : Constructing Unit :=
  modify fun construction =>
    { construction with nodes := construction.nodes.setIfInBounds number node }

/-- The text of a scalar node.  A mapping stands for the scalar under its key `=`. -/
def textOf : Nat → Nat → Constructing (List Char)
  | 0, _ => throw .endless
  | levels + 1, number => do
    match ← nodeAt number with
    | .scalar _ text => pure text
    | .sequence _ _ => refuse "expected a scalar node, but found sequence"
    | .mapping _ entries => do
      let construction ← get
      let isDefault (entry : Nat × Nat) : Bool :=
        ((construction.nodes[entry.1]?).map Node.tag) = some Tag.defaultValue.uri
      match entries.find? isDefault with
      | some (_, value) => textOf levels value
      | none => refuse "expected a scalar node, but found mapping"

/-- Begins the collection of a node, if it is not there yet. -/
def begin_ (number : Nat) (content : Value) : Constructing Value := do
  modify fun construction =>
    if construction.begun[number]?.getD true then construction
    else
      { construction with
        cells := construction.cells.setIfInBounds number content
        begun := construction.begun.setIfInBounds number true
        waiting := number :: construction.waiting }
  pure (.link number content.kind)

/-- The value of a node; a collection is only begun. -/
def valueOf (number : Nat) : Constructing Value := do
  let node ← nodeAt number
  let construction ← get
  let levels := construction.nodes.size + 1
  match Maker.ofTag? node.tag with
  | some (.scalar read) => do
    let text ← textOf levels number
    let value ← read text
    pure (.scalar value)
  | some .moment => do
    let text ← textOf levels number
    match node with
    | .scalar _ _ => do
      let value ← momentOf text
      pure (.scalar value)
    | _ => throw .momentOfCollection
  | some .list => begin_ number (.list [])
  | some .pairs => begin_ number (.pairs [])
  | some .dict => begin_ number (.dict [])
  | some .set => begin_ number (.set [])
  | none => refuse "could not determine a constructor for the tag"

/-- Whether a node is a scalar of a kind. -/
def hasTag (construction : Construction) (tag : Tag) (number : Nat) : Bool :=
  ((construction.nodes[number]?).map Node.tag) = some tag.uri

/-- Makes a key `=` the text that it is. -/
def asText (number : Nat) : Constructing Unit := do
  let construction ← get
  if construction.hasTag .defaultValue number then
    match ← nodeAt number with
    | .scalar _ text => put number (.scalar Tag.string.uri text)
    | .sequence _ items => put number (.sequence Tag.string.uri items)
    | .mapping _ entries => put number (.mapping Tag.string.uri entries)

/-- The entries of a mapping; anything else has none. -/
def entriesOf (number : Nat) : Constructing (List (Nat × Nat)) := do
  match ← nodeAt number with
  | .mapping _ entries => pure entries
  | _ => pure []

def putEntries (number : Nat) (entries : List (Nat × Nat)) : Constructing Unit := do
  let node ← nodeAt number
  put number (.mapping node.tag entries)

mutual

/-- Writes out the mappings that are merged into a mapping, those from an index on: they are taken
out of its entries and their own entries put in front, behind those that are merged already.

Each step takes one merged mapping out of its node, so the steps are bounded by their number. -/
def flattenFrom : Nat → Nat → Nat → List (Nat × Nat) → Constructing Unit
  | 0, _, _, _ => pure ()
  | levels + 1, number, index, merged => do
    let entries ← entriesOf number
    let construction ← get
    let isPlain (entry : Nat × Nat) : Bool := !construction.hasTag .merge entry.1
    let passed := (entries.drop index).takeWhile isPlain
    passed.forM fun (key, _) => asText key
    let next := index + passed.length
    match entries[next]? with
    | none => putEntries number (merged ++ entries)
    | some (_, value) => do
      putEntries number (entries.eraseIdx next)
      let more ←
        match ← nodeAt value with
        | .mapping _ _ => do
          flattenFrom levels value 0 []
          entriesOf value
        | .sequence _ items => flattenItems levels items
        | .scalar _ _ => refuse "expected a mapping or list of mappings for merging"
      flattenFrom levels number next (merged ++ more)

/-- The entries of the mappings in a list, the last mapping first. -/
def flattenItems : Nat → List Nat → Constructing (List (Nat × Nat))
  | _, [] => pure []
  | levels, item :: rest => do
    match ← nodeAt item with
    | .mapping _ _ => do
      flattenFrom levels item 0 []
      let own ← entriesOf item
      let others ← flattenItems levels rest
      pure (others ++ own)
    | _ => refuse "expected a mapping for merging"

end

def mergeCount (construction : Construction) : Nat :=
  construction.nodes.foldl
    (fun count node =>
      match node with
      | .mapping _ entries => count + entries.countP fun (key, _) => construction.hasTag .merge key
      | _ => count)
    0

/-- Writes out the mappings that are merged into a mapping. -/
def flatten (number : Nat) : Constructing Unit := do
  let construction ← get
  flattenFrom (construction.mergeCount + 1) number 0 []

/-- The key that a value can be; a collection is none. -/
def keyOf : Value → Constructing Scalar
  | .scalar key => pure key
  | _ => refuse "found unhashable key"

def entryValue (entry : Nat × Nat) : Constructing (Scalar × Value) := do
  let key ← valueOf entry.1
  let key ← keyOf key
  let value ← valueOf entry.2
  pure (key, value)

def mappingOf (number : Nat) : Constructing Entries := do
  match ← nodeAt number with
  | .mapping _ _ => do
    flatten number
    let entries ← entriesOf number
    let found ← entries.mapM entryValue
    pure (Entries.ofList found)
  | _ => refuse "expected a mapping node"

/-- The pair of a mapping node with one entry. -/
def pairOf (number : Nat) : Constructing (Value × Value) := do
  match ← nodeAt number with
  | .mapping _ [(key, value)] => do
    let key ← valueOf key
    let value ← valueOf value
    pure (key, value)
  | _ => refuse "expected a mapping of length 1"

def itemsOf (number : Nat) : Constructing (List Nat) := do
  match ← nodeAt number with
  | .sequence _ items => pure items
  | _ => refuse "expected a sequence node"

def contentOf (number : Nat) : Constructing Value := do
  let node ← nodeAt number
  match Maker.ofTag? node.tag with
  | some .list => do
    let items ← itemsOf number
    Value.list <$> items.mapM valueOf
  | some .pairs => do
    let items ← itemsOf number
    Value.pairs <$> items.mapM pairOf
  | some .dict => Value.dict <$> mappingOf number
  | some .set => do
    let entries ← mappingOf number
    pure (.set (Data.inSlots entries.keys))
  | _ => pure .null

def fill (number : Nat) : Constructing Unit := do
  let content ← contentOf number
  modify fun construction =>
    { construction with cells := construction.cells.setIfInBounds number content }

/-- Fills the collections that wait, round after round.  Every round but the last fills at least
one, and none is filled twice. -/
def fillAll : Nat → Constructing Unit
  | 0 => pure ()
  | rounds + 1 => do
    let construction ← get
    match construction.waiting with
    | [] => pure ()
    | waiting => do
      set { construction with waiting := [] }
      waiting.reverse.forM fill
      fillAll rounds

def document (root : Nat) : Constructing Value := do
  let value ← valueOf root
  let construction ← get
  fillAll (construction.nodes.size + 1)
  pure value

end Construction

/-- The value that a graph of nodes denotes; without a document it is null. -/
def Graph.construct (graph : Graph) : Except Complaint Data.Shared :=
  match graph.root with
  | none => .ok (.plain .null)
  | some root =>
    let count := graph.nodes.size
    let start : Construction :=
      {
        nodes := graph.nodes
        cells := Array.replicate count .null
        begun := Array.replicate count false
      }
    match (Construction.document root).run start with
    | .ok (value, construction) => .ok ⟨value, construction.cells⟩
    | .error complaint => .error complaint

def Complaint.fault : Complaint → Fault
  | .malformed reason => .notYaml "YAMLError" reason
  | .badValue reason => .badValue reason
  | .overflow reason => .overflow reason
  | .unknownWord word => .notFound (Text.quoted word)
  | .emptyText => .outOfRange "string index out of range"
  | .noMoment => .noOperation .null "groupdict"
  | .momentOfCollection => .notMatchable .list
  | .endless => .tooDeep "maximum recursion depth exceeded"

/-- The value of the one document of a text, with its shared parts. -/
def read (text : String) : Except Fault Data.Shared :=
  match Graph.ofTokens (Token.scan text.toList) >>= Graph.construct with
  | .ok value => .ok value
  | .error complaint => .error complaint.fault

end Provenance.Yaml
