import QueryPaging.Yaml.Basic
import QueryPaging.Yaml.Layout

/-!
# Reading YAML

A text holds one document. `NodeReader` takes tokens from the front of a list, and makes values of
them.

Every step into a value, an entry or an item uses up one unit of `fuel`.
-/

namespace QueryPaging.Yaml

/-- A value that a reference may stand for. -/
structure AnchoredNode where
  /-- How many names were in use when the value was named. -/
  anchor : Nat
  /-- How many values were named before it. -/
  order : Nat
  node : Yaml

/-- The tokens not yet taken, and what is known about the names in them. -/
structure NodeSource where
  rest : List Token
  handles : List (String × String)
  /-- The names in use, latest first, and the anchors they stand for. -/
  names : List (String × Nat)
  /-- How many values were named. -/
  namings : Nat
  anchored : List AnchoredNode

abbrev NodeReader (α : Type) := StateT NodeSource Option α

namespace NodeReader

/-! ## Tokens -/

def peek : NodeReader (Option Token) := do
  return (← get).rest.head?

/-- Take the next token, whatever it is. -/
def advance : NodeReader Unit :=
  modify fun source => { source with rest := source.rest.tail }

/-- Take the next token if it is this one, and say whether it was. -/
def accept (token : Token) : NodeReader Bool := do
  if (← peek) == some token then
    advance
    return true
  else
    return false

/-- Take the next token, which must be this one. -/
def expect (token : Token) : NodeReader Unit := do
  if ← accept token then pure () else failure

def seesAny (tokens : List Token) : NodeReader Bool := do
  return (← peek).any tokens.contains

/-- Nothing if the next token is one of some, and else what `node` reads. -/
def unlessSeen (tokens : List Token) (node : NodeReader Yaml) : NodeReader Yaml := do
  if ← seesAny tokens then return absent else node

/-- A value that may be missing behind a token that introduces it. -/
def introduced (token : Token) (ends : List Token) (node : NodeReader Yaml) : NodeReader Yaml := do
  if ← accept token then unlessSeen ends node else return absent

/-! ## Names -/

def acceptAnchor : NodeReader (Option String) := do
  match ← peek with
  | some (.anchor name) =>
      advance
      return some name
  | _ => return none

/-- Take the next token if it is a tag, and put its handle's meaning before it. -/
def acceptTag : NodeReader (Option String) := do
  match ← peek with
  | some (.tag handle suffix) =>
      advance
      if handle.isEmpty then
        return some suffix
      else
        let some meaning := (← get).handles.lookup handle | failure
        return some (meaning ++ suffix)
  | _ => return none

/-- An anchor and a tag, either of which may be missing, in any order. -/
def properties : NodeReader (Option String × Option String) := do
  match ← acceptAnchor with
  | some name => return (some name, ← acceptTag)
  | none =>
      let tag ← acceptTag
      let name ← if tag.isSome then acceptAnchor else pure none
      return (name, tag)

def anchorOf (name : String) : NodeReader Nat := do
  let some anchor := (← get).names.lookup name | failure
  return anchor

/-- Let a name stand for a value that `content` reads. The name may be used within the value. A
name that is already in use takes a new anchor, and an anchor may so come to be taken twice; the
value named last has it then. -/
def anchoredAs (name : String) (content : NodeReader Yaml) : NodeReader Yaml := do
  let source ← get
  let anchor := source.names.length
  let order := source.namings
  set { source with
    names := (name, anchor) :: source.names.filter (·.1 ≠ name)
    namings := order + 1 }
  let node ← content
  modify fun source => { source with anchored := ⟨anchor, order, node⟩ :: source.anchored }
  return node

/-! ## Values -/

/-- Where a value stands, which tells how it may be written. -/
inductive Setting where
  | flow
  | block
  /-- A key or value of a block mapping: it may be a sequence that stands no deeper than the
  mapping. -/
  | entry
deriving DecidableEq

/-- The tokens before which an entry of a block mapping may be missing. -/
def entryEnds : List Token :=
  [.key, .value, .blockEnd]

mutual

/-- A value. -/
def node : (fuel : Nat) → Setting → NodeReader Yaml
  | 0, _ => failure
  | fuel + 1, setting => do
      match ← peek with
      | some (.reference name) =>
          advance
          return .reference (← anchorOf name)
      | _ =>
          let (name, tag) ← properties
          let content := content fuel setting (name.isSome || tag.isSome) tag
          match name with
          | some name => anchoredAs name content
          | none => content

/-- A value behind its properties. With any properties it may be empty. A scalar with the tag of a
single mark has no tag. -/
def content : (fuel : Nat) → Setting → (mayBeEmpty : Bool) → (tag : Option String) → NodeReader Yaml
  | 0, _, _, _ => failure
  | fuel + 1, setting, mayBeEmpty, tag => do
      match ← peek with
      | some (.scalar isPlain text) =>
          advance
          return .scalar (tag.filter (· ≠ "!")) isPlain text
      | some .flowSequenceStart =>
          advance
          return .sequence tag (← flowItems fuel true)
      | some .flowMappingStart =>
          advance
          return .mapping tag (← flowEntries fuel true)
      | next =>
          if next = some .item ∧ setting = .entry then
            return .sequence tag (← indentlessItems fuel)
          else if next = some .blockSequenceStart ∧ setting ≠ .flow then
            advance
            return .sequence tag (← blockItems fuel)
          else if next = some .blockMappingStart ∧ setting ≠ .flow then
            advance
            return .mapping tag (← blockEntries fuel)
          else if mayBeEmpty then
            return .scalar tag true ""
          else
            failure

/-- The items of a block sequence up to its end. -/
def blockItems : (fuel : Nat) → NodeReader (List Yaml)
  | 0 => failure
  | fuel + 1 => do
      if ← accept .item then
        let item ← unlessSeen [.item, .blockEnd] (node fuel .block)
        return item :: (← blockItems fuel)
      else
        expect .blockEnd
        return []

/-- The items of a sequence that stands no deeper than the mapping around it. -/
def indentlessItems : (fuel : Nat) → NodeReader (List Yaml)
  | 0 => failure
  | fuel + 1 => do
      if ← accept .item then
        let item ← unlessSeen (.item :: entryEnds) (node fuel .block)
        return item :: (← indentlessItems fuel)
      else
        return []

/-- The entries of a block mapping up to its end. -/
def blockEntries : (fuel : Nat) → NodeReader (List (Yaml × Yaml))
  | 0 => failure
  | fuel + 1 => do
      if ← accept .key then
        let key ← unlessSeen entryEnds (node fuel .entry)
        let value ← introduced .value entryEnds (node fuel .entry)
        return (key, value) :: (← blockEntries fuel)
      else
        expect .blockEnd
        return []

/-- The items between brackets. An item with a key is a mapping of one entry. Before an item that
is not the first there is a comma. -/
def flowItems : (fuel : Nat) → (isFirst : Bool) → NodeReader (List Yaml)
  | 0, _ => failure
  | fuel + 1, isFirst => do
      if ← accept .flowSequenceEnd then
        return []
      else
        if !isFirst then expect .comma
        if ← accept .flowSequenceEnd then
          return []
        else
          let item ← flowItem fuel
          return item :: (← flowItems fuel false)

/-- An item between brackets. Behind a mark for a key that is missing, one token is passed over. -/
def flowItem : (fuel : Nat) → NodeReader Yaml
  | 0 => failure
  | fuel + 1 => do
      if ← accept .key then
        let isMissing ← seesAny [.value, .comma, .flowSequenceEnd]
        let key ← if isMissing then do advance; pure absent else node fuel .flow
        let value ← introduced .value [.comma, .flowSequenceEnd] (node fuel .flow)
        return .mapping none [(key, value)]
      else
        node fuel .flow

/-- The entries between braces. Before an entry that is not the first there is a comma. -/
def flowEntries : (fuel : Nat) → (isFirst : Bool) → NodeReader (List (Yaml × Yaml))
  | 0, _ => failure
  | fuel + 1, isFirst => do
      if ← accept .flowMappingEnd then
        return []
      else
        if !isFirst then expect .comma
        if ← accept .flowMappingEnd then
          return []
        else
          let entry ← flowEntry fuel
          return entry :: (← flowEntries fuel false)

/-- An entry between braces: a value by itself is a key. -/
def flowEntry : (fuel : Nat) → NodeReader (Yaml × Yaml)
  | 0 => failure
  | fuel + 1 => do
      let ends := [Token.comma, .flowMappingEnd]
      if ← accept .key then
        let key ← unlessSeen (.value :: ends) (node fuel .flow)
        return (key, ← introduced .value ends (node fuel .flow))
      else
        return (← node fuel .flow, absent)

end

/-! ## Documents -/

/-- The handles that need not be declared. -/
def commonHandles : List (String × String) :=
  [("!", "!"), ("!!", coreTags)]

/-- The directives before a document: at most one version, and no handle twice. What they declare
stands before what need not be declared. -/
def directives : (fuel : Nat) → (hasVersion : Bool) → (handles : List (String × String)) →
    NodeReader (List (String × String))
  | 0, _, _ => failure
  | fuel + 1, hasVersion, handles => do
      match ← peek with
      | some (.version major minor) =>
          if hasVersion || major ≠ 1 || (minor ≠ 1 && minor ≠ 2) then failure
          advance
          directives fuel true handles
      | some (.handle handle meaning) =>
          if handles.any (·.1 == handle) then failure
          advance
          directives fuel hasVersion ((handle, meaning) :: handles)
      | _ => return handles ++ commonHandles

/-- Whether a token can open the value of a document. -/
def opensValue : Token → Bool
  | .version _ _ => false
  | .handle _ _ => false
  | .documentStart => false
  | .documentEnd => false
  | _ => true

/-- The value of a document whose first token is given. Behind a marker it may be missing, and
before a marker there may be directives. -/
def documentRoot (fuel : Nat) (first : Token) : NodeReader Yaml := do
  if opensValue first || first = .documentEnd then
    node fuel .block
  else
    let handles ← directives fuel false []
    modify fun source => { source with handles }
    expect .documentStart
    if (← peek).any opensValue then node fuel .block else return absent

/-- The only document of a text, if there is one, and the markers that end it. -/
def onlyDocument (fuel : Nat) : NodeReader Yaml := do
  match ← peek with
  | none => return absent
  | some first =>
      let root ← documentRoot fuel first
      modify fun source => { source with rest := source.rest.dropWhile (· == .documentEnd) }
      if (← get).rest.isEmpty then return root else failure

end NodeReader

/-- The value of an anchor is the one that was named last. -/
def latestFirst (anchored : List AnchoredNode) : List (Nat × Yaml) :=
  (anchored.mergeSort fun left right => right.order ≤ left.order).map fun held =>
    (held.anchor, held.node)

def Document.ofText? (text : String) : Option Document := do
  let tokens ← Token.ofText? text
  let source := ⟨tokens, NodeReader.commonHandles, [], 0, []⟩
  let (root, source) ← StateT.run (NodeReader.onlyDocument (4 * tokens.length + 4)) source
  return ⟨root, latestFirst source.anchored⟩

end QueryPaging.Yaml
