import Provenance.Yaml.Tag
import Provenance.Yaml.Token

/-!
Contract: YAML tokens as a graph of nodes.

Owns:
- `Node`, a scalar, a sequence or a mapping with its tag, whose parts are numbers of
  other nodes;
- `Graph`, the numbered nodes of a document;
- `Parser`, the tokens that are left with the nodes and the anchors met so far;
- `Graph.ofTokens`, the one document of a list of tokens.

Does **not** own: the value of a node.

## Why nodes have numbers

An alias stands for a node that is written elsewhere, perhaps for one that the
alias itself is a part of.  So a node names its parts by their numbers, and an alias
gives the number of the node that it stands for.

## Where nodes are left out

An item, a key or a value may be missing; then an empty plain scalar stands in its
place.  Which tokens show that it is missing depends on the collection, so every
place names them.
-/

set_option autoImplicit false

namespace Provenance.Yaml

def coreStart : String := "tag:yaml.org,2002:"

def Tag.uri : Tag → String
  | .string => coreStart ++ "str"
  | .null => coreStart ++ "null"
  | .bool => coreStart ++ "bool"
  | .int => coreStart ++ "int"
  | .float => coreStart ++ "float"
  | .timestamp => coreStart ++ "timestamp"
  | .merge => coreStart ++ "merge"
  | .defaultValue => coreStart ++ "value"
  | .reserved => coreStart ++ "yaml"

/-- A part of a document; its own parts are numbers of nodes. -/
inductive Node where
  | scalar (tag : String) (text : List Char)
  | sequence (tag : String) (items : List Nat)
  | mapping (tag : String) (entries : List (Nat × Nat))
  deriving Repr, DecidableEq

namespace Node

def empty : Node := .scalar Tag.null.uri []

instance : Inhabited Node := ⟨empty⟩

def tag : Node → String
  | .scalar tag _ => tag
  | .sequence tag _ => tag
  | .mapping tag _ => tag

end Node

/-- The nodes of a document by their numbers. -/
structure Graph where
  nodes : Array Node := #[]
  /-- The node that is the whole document, if there is a document. -/
  root : Option Nat := none
  deriving Repr

/-- The tokens that are left, and what has been met so far. -/
structure Parser where
  tokens : List Token
  stop : Option Complaint := none
  /-- The handles of tags with what they stand for. -/
  handles : List (String × String) := []
  anchors : List (String × Nat) := []
  nodes : Array Node := #[]

/-- Steps of a parser, which a complaint ends. -/
abbrev Parsing (α : Type) : Type := StateT Parser (Except Complaint) α

namespace Parser

def refuse {α : Type} (reason : String) : Parsing α :=
  throw (.malformed reason)

/-- The next token; at the end it is the end of the stream. -/
def peek : Parsing Token := do
  let parser ← get
  match parser.tokens, parser.stop with
  | token :: _, _ => pure token
  | [], some complaint => throw complaint
  | [], none => pure .streamEnd

def skip : Parsing Unit :=
  modify fun parser => { parser with tokens := parser.tokens.tail }

def isAt (tokens : List Token) : Parsing Bool := do
  let token ← peek
  pure (tokens.contains token)

def add (node : Node) : Parsing Nat := do
  let parser ← get
  set { parser with nodes := parser.nodes.push node }
  pure parser.nodes.size

/-- Puts a node in the place of the one with a number. -/
def put (number : Nat) (node : Node) : Parsing Unit :=
  modify fun parser => { parser with nodes := parser.nodes.setIfInBounds number node }

/-- An empty scalar in the place of a missing node. -/
def addEmpty : Parsing Nat :=
  add .empty

/-- An anchor and a tag in front of a node. -/
structure Properties where
  anchor : Option String := none
  tag : Option String := none

/-- The anchor that stands next, if one does. -/
def takeAnchor : Parsing (Option String) := do
  match ← peek with
  | .anchor name => do
    skip
    pure (some name)
  | _ => pure none

/-- The handle and the suffix of the tag that stands next, if one does. -/
def takeTag : Parsing (Option (Option String × String)) := do
  match ← peek with
  | .tag handle suffix => do
    skip
    pure (some (handle, suffix))
  | _ => pure none

def resolveTag : Option (Option String × String) → Parsing (Option String)
  | none => pure none
  | some (none, suffix) => pure (some suffix)
  | some (some handle, suffix) => do
    let parser ← get
    match parser.handles.lookup handle with
    | some start => pure (some (start ++ suffix))
    | none => refuse "found undefined tag handle"

/-- The anchor and the tag in front of a node, in either order. -/
def properties : Parsing Properties := do
  match ← takeAnchor with
  | some name => do
    let tag ← takeTag
    pure ⟨some name, ← resolveTag tag⟩
  | none =>
    match ← takeTag with
    | some tag => do
      let anchor ← takeAnchor
      pure ⟨anchor, ← resolveTag (some tag)⟩
    | none => pure {}

/-- The tag of a scalar: the given one, or the one that its text resolves to.  The tag `!` leaves
the choice to the text, whatever the form. -/
def scalarTag (given : Option String) (form : ScalarForm) (text : List Char) : String :=
  match given with
  | none => if form = .plain then (Tag.ofText text).uri else Tag.string.uri
  | some "!" => (Tag.ofText text).uri
  | some tag => tag

/-- The tag of a collection: the given one, or the usual one. -/
def collectionTag (given : Option String) (usual : String) : String :=
  match given with
  | none => coreStart ++ usual
  | some "!" => coreStart ++ usual
  | some tag => tag

/-- Adds a node under its anchor, which may not be named twice. -/
def addNamed (anchor : Option String) (node : Node) : Parsing Nat := do
  match anchor with
  | none => add node
  | some name =>
    let parser ← get
    match parser.anchors.lookup name with
    | some _ => refuse "found duplicate anchor"
    | none => do
      let number ← add node
      modify fun parser => { parser with anchors := (name, number) :: parser.anchors }
      pure number

/-- Adds a sequence; it is there before its items are, which may lead back to it. -/
def addSequence (properties : Properties) (items : Parsing (List Nat)) : Parsing Nat := do
  let tag := collectionTag properties.tag "seq"
  let number ← addNamed properties.anchor (.sequence tag [])
  skip
  let found ← items
  put number (.sequence tag found)
  pure number

/-- Adds a mapping; it is there before its entries are, which may lead back to it. -/
def addMapping (properties : Properties) (entries : Parsing (List (Nat × Nat))) :
    Parsing Nat := do
  let tag := collectionTag properties.tag "map"
  let number ← addNamed properties.anchor (.mapping tag [])
  skip
  let found ← entries
  put number (.mapping tag found)
  pure number

/-- Which collections may begin at a place. -/
structure Place where
  block : Bool
  /-- Whether items may begin without indentation of their own. -/
  indentless : Bool
  deriving DecidableEq

def Place.flow : Place := ⟨false, false⟩

/-- An item, or a whole document. -/
def Place.blockNode : Place := ⟨true, false⟩

def Place.blockEntry : Place := ⟨true, true⟩

/-- A node of which only the properties are there. -/
def bare (properties : Properties) : Parsing Nat :=
  if properties.anchor.isSome || properties.tag.isSome then
    addNamed properties.anchor (.scalar (scalarTag properties.tag .plain []) [])
  else
    refuse "expected the node content"

mutual

def node : Nat → Place → Parsing Nat
  | 0, _ => refuse "expected the node content"
  | fuel + 1, place => do
    match ← peek with
    | .aliased name => do
      skip
      let parser ← get
      match parser.anchors.lookup name with
      | some number => pure number
      | none => refuse "found undefined alias"
    | _ => do
      let properties ← properties
      content fuel place properties

def content : Nat → Place → Properties → Parsing Nat
  | 0, _, _ => refuse "expected the node content"
  | fuel + 1, place, properties => do
    match ← peek with
    | .scalar form text => do
      let number ←
        addNamed properties.anchor (.scalar (scalarTag properties.tag form text) text)
      skip
      pure number
    | .blockEntry =>
      if place.indentless then addSequence properties (indentlessItems fuel) else bare properties
    | .flowSequenceStart => addSequence properties (flowItems fuel true)
    | .flowMappingStart => addMapping properties (flowEntries fuel true)
    | .blockSequenceStart =>
      if place.block then addSequence properties (blockItems fuel) else bare properties
    | .blockMappingStart =>
      if place.block then addMapping properties (blockEntries fuel) else bare properties
    | _ => bare properties

/-- A node that may be left out: it is missing before any of the given tokens. -/
def optional : Nat → Place → List Token → Parsing Nat
  | 0, _, _ => refuse "expected the node content"
  | fuel + 1, place, enders => do
    if ← isAt enders then addEmpty else node fuel place

/-- The items of a sequence with an indentation of its own. -/
def blockItems : Nat → Parsing (List Nat)
  | 0 => refuse "expected <block end>"
  | fuel + 1 => do
    match ← peek with
    | .blockEntry => do
      skip
      let item ← optional fuel .blockNode [.blockEntry, .blockEnd]
      let items ← blockItems fuel
      pure (item :: items)
    | .blockEnd => do
      skip
      pure []
    | _ => refuse "expected <block end>"

/-- The items of a sequence at the indentation of its key, from behind the first mark on. -/
def indentlessItems : Nat → Parsing (List Nat)
  | 0 => refuse "expected <block end>"
  | fuel + 1 => do
    let item ← optional fuel .blockNode [.blockEntry, .key, .value, .blockEnd]
    match ← peek with
    | .blockEntry => do
      skip
      let items ← indentlessItems fuel
      pure (item :: items)
    | _ => pure [item]

/-- The value after a key, if its mark stands there. -/
def valueAfterKey : Nat → Place → List Token → Parsing Nat
  | 0, _, _ => refuse "expected the node content"
  | fuel + 1, place, enders => do
    match ← peek with
    | .value => do
      skip
      optional fuel place enders
    | _ => addEmpty

/-- The entries of a mapping with an indentation of its own. -/
def blockEntries : Nat → Parsing (List (Nat × Nat))
  | 0 => refuse "expected <block end>"
  | fuel + 1 => do
    match ← peek with
    | .key => do
      skip
      let key ← optional fuel .blockEntry [.key, .value, .blockEnd]
      let value ← valueAfterKey fuel .blockEntry [.key, .value, .blockEnd]
      let entries ← blockEntries fuel
      pure ((key, value) :: entries)
    | .blockEnd => do
      skip
      pure []
    | _ => refuse "expected <block end>"

/-- The items of a sequence in brackets; a pair may stand for a mapping of one entry. -/
def flowItems : Nat → Bool → Parsing (List Nat)
  | 0, _ => refuse "expected ',' or ']'"
  | fuel + 1, isFirst => do
    if ← isAt [.flowSequenceEnd] then
      skip
      pure []
    else
      if !isFirst then
        if ← isAt [.flowEntry] then skip else refuse "expected ',' or ']'"
      match ← peek with
      | .flowSequenceEnd => do
        skip
        pure []
      | .key => do
        let item ← addMapping {} do
          let key ← optional fuel .flow [.value, .flowEntry, .flowSequenceEnd]
          let value ← valueAfterKey fuel .flow [.flowEntry, .flowSequenceEnd]
          pure [(key, value)]
        let items ← flowItems fuel false
        pure (item :: items)
      | _ => do
        let item ← node fuel .flow
        let items ← flowItems fuel false
        pure (item :: items)

/-- The entries of a mapping in braces; a key may stand alone. -/
def flowEntries : Nat → Bool → Parsing (List (Nat × Nat))
  | 0, _ => refuse "expected ',' or '\x7d'"
  | fuel + 1, isFirst => do
    if ← isAt [.flowMappingEnd] then
      skip
      pure []
    else
      if !isFirst then
        if ← isAt [.flowEntry] then skip else refuse "expected ',' or '\x7d'"
      match ← peek with
      | .flowMappingEnd => do
        skip
        pure []
      | .key => do
        skip
        let key ← optional fuel .flow [.value, .flowEntry, .flowMappingEnd]
        let value ← valueAfterKey fuel .flow [.flowEntry, .flowMappingEnd]
        let entries ← flowEntries fuel false
        pure ((key, value) :: entries)
      | _ => do
        let key ← node fuel .flow
        let value ← addEmpty
        let entries ← flowEntries fuel false
        pure ((key, value) :: entries)

end

def directives : Nat → Bool → Parsing Unit
  | 0, _ => pure ()
  | fuel + 1, hasVersion => do
    match ← peek with
    | .versionDirective major =>
      if hasVersion then refuse "found duplicate YAML directive"
      else if major ≠ 1 then refuse "found incompatible YAML document"
      else
        skip
        directives fuel true
    | .tagDirective handle start => do
      let parser ← get
      match parser.handles.lookup handle with
      | some _ => refuse "duplicate tag handle"
      | none =>
        modify fun parser => { parser with handles := (handle, start) :: parser.handles }
        skip
        directives fuel hasVersion
    | .otherDirective =>
      skip
      directives fuel hasVersion
    | _ => pure ()

def standardHandles : List (String × String) :=
  [("!", "!"), ("!!", coreStart)]

/-- The directives in front of a document and the mark that begins it. -/
def documentHead : Parsing Unit := do
  modify fun parser => { parser with handles := [] }
  let parser ← get
  directives (parser.tokens.length + 1) false
  modify fun parser => { parser with handles := parser.handles ++ standardHandles }
  if ← isAt [.documentStart] then skip else refuse "expected '<document start>'"

/-- Whether a document has directives or a mark in front of it. -/
def isExplicit : Token → Bool
  | .versionDirective _ => true
  | .tagDirective .. => true
  | .otherDirective => true
  | .documentStart => true
  | _ => false

/-- Whether a document is left out before a token. -/
def endsDocument (token : Token) : Bool :=
  isExplicit token || token == .documentEnd || token == .streamEnd

/-- The first document, if there is one. -/
def document (fuel : Nat) : Parsing (Option Nat) := do
  let token ← peek
  if token = .streamEnd then
    pure none
  else if isExplicit token then
    documentHead
    if endsDocument (← peek) then some <$> addEmpty else some <$> node fuel .blockNode
  else
    modify fun parser => { parser with handles := standardHandles }
    some <$> node fuel .blockNode

def skipEnds : Nat → Parsing Unit
  | 0 => pure ()
  | fuel + 1 => do
    if ← isAt [.documentEnd] then
      skip
      skipEnds fuel

/-- The one document, behind which there may be no other. -/
def onlyDocument : Parsing (Option Nat) := do
  let parser ← get
  let count := parser.tokens.length
  let found ← document (4 * count + 8)
  skipEnds (count + 1)
  if ← isAt [.streamEnd] then
    pure found
  else
    documentHead
    refuse "expected a single document in the stream"

end Parser

def Graph.ofTokens (tokens : Tokens) : Except Complaint Graph :=
  match Parser.onlyDocument.run { tokens := tokens.found, stop := tokens.stop } with
  | .ok (root, parser) => .ok ⟨parser.nodes, root⟩
  | .error complaint => .error complaint

end Provenance.Yaml
