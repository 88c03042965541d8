import QueryPaging.Yaml.Scalar
import QueryPaging.Yaml.Token

/-!
# The layout of YAML texts

`Token.ofText?` splits a text into tokens. In blocks the columns tell where a block starts and ends,
and a colon tells that what stands before it is a key; so a token may have to be put in before
tokens that were already read. `Layout` holds what has been read and what may still become of it.

Between brackets columns mean nothing.
-/

namespace QueryPaging.Yaml

/-- Something that is a key if a colon follows. -/
structure KeyCandidate where
  /-- How many tokens stand before it. -/
  number : Nat
  start : Place
  /-- Whether nothing but a key may stand here. -/
  isRequired : Bool

namespace KeyCandidate

/-- A key stands on a single line and is at most 1024 characters long. -/
def reaches (candidate : KeyCandidate) (place : Place) : Bool :=
  candidate.start.line == place.line && place.index ≤ candidate.start.index + 1024

end KeyCandidate

/-- How far a text has been split into tokens. -/
structure Layout where
  place : Place
  /-- The tokens read so far, latest first. -/
  tokens : List Token
  /-- How many tokens were read. -/
  count : Nat
  /-- The column behind the one at which the innermost block stands; zero outside of blocks. -/
  margin : Nat
  /-- The margins around the blocks that enclose the place, innermost first. -/
  outer : List Nat
  /-- What may turn out to be a key. -/
  candidate : Option KeyCandidate
  /-- The candidates around the open brackets, innermost first. -/
  enclosing : List (Option KeyCandidate)
  /-- Whether a key may begin here. -/
  allowsKey : Bool

namespace Layout

def start (text : List Char) : Layout :=
  { place := Place.start text
    tokens := []
    count := 0
    margin := 0
    outer := []
    candidate := none
    enclosing := []
    allowsKey := true }

/-- Whether the place is between brackets. -/
def inFlow (layout : Layout) : Bool :=
  !layout.enclosing.isEmpty

/-- Add a token and go on at a place behind it. -/
def add (layout : Layout) (token : Token) (next : Place) : Layout :=
  { layout with
    place := next
    tokens := token :: layout.tokens
    count := layout.count + 1 }

/-- Put in a token that has `number` tokens before it. -/
def insert (layout : Layout) (number : Nat) (token : Token) : Layout :=
  let later := layout.count - number
  { layout with
    tokens := layout.tokens.take later ++ token :: layout.tokens.drop later
    count := layout.count + 1 }

/-! ## Blocks -/

/-- Open a block in a column, before the token of a number, unless a block stands there. -/
def openBlock (layout : Layout) (column number : Nat) (token : Token) : Layout :=
  if layout.inFlow || column < layout.margin then
    layout
  else
    { layout.insert number token with
      margin := column + 1
      outer := layout.margin :: layout.outer }

/-- Close the blocks whose margin is greater than told, given the margins around them. -/
def closeAround (layout : Layout) (margin : Nat) : List Nat → Layout
  | [] => layout
  | around :: outer =>
      if layout.margin ≤ margin then
        layout
      else
        closeAround { layout.add .blockEnd layout.place with margin := around, outer } margin outer

def closeBlocks (layout : Layout) (margin : Nat) : Layout :=
  if layout.inFlow then layout else layout.closeAround margin layout.outer

/-! ## Keys -/

/-- Give up the candidate, unless only a key may stand there. -/
def dropCandidate? (layout : Layout) : Option Layout :=
  if layout.candidate.any (·.isRequired) then none else some { layout with candidate := none }

/-- Note that a key may begin here, if one may. -/
def noteCandidate? (layout : Layout) : Option Layout :=
  if layout.allowsKey then do
    let isRequired := !layout.inFlow && layout.margin == layout.place.column + 1
    let candidate := ⟨layout.count, layout.place, isRequired⟩
    return { ← layout.dropCandidate? with candidate := some candidate }
  else
    some layout

/-- The candidate that a colon here turns into a key. Where only a key may stand, it must still
reach here. -/
def keyHere? (layout : Layout) : Option (Option KeyCandidate) :=
  match layout.candidate with
  | none => some none
  | some candidate =>
      if candidate.reaches layout.place then some (some candidate)
      else if candidate.isRequired then none
      else some none

/-! ## Tokens -/

/-- A marker or directive: it closes all blocks. -/
def separator? (layout : Layout) (token : Token) (next : Place) : Option Layout := do
  let closed ← (layout.closeBlocks 0).dropCandidate?
  return { closed.add token next with allowsKey := false }

/-- A bracket or brace that opens. -/
def openFlow? (layout : Layout) (token : Token) : Option Layout := do
  let noted ← layout.noteCandidate?
  let added := noted.add token (layout.place.pass 1)
  return { added with
    candidate := none
    enclosing := added.candidate :: added.enclosing
    allowsKey := true }

/-- A bracket or brace that closes. -/
def closeFlow? (layout : Layout) (token : Token) : Option Layout := do
  let dropped ← layout.dropCandidate?
  let added := { dropped.add token (layout.place.pass 1) with allowsKey := false }
  match added.enclosing with
  | [] => return added
  | candidate :: enclosing => return { added with candidate, enclosing }

def comma? (layout : Layout) : Option Layout := do
  let dropped ← layout.dropCandidate?
  return { dropped.add .comma (layout.place.pass 1) with allowsKey := true }

/-- The dash before an item. -/
def item? (layout : Layout) : Option Layout := do
  if !layout.inFlow && !layout.allowsKey then none
  let opened := layout.openBlock layout.place.column layout.count .blockSequenceStart
  let dropped ← opened.dropCandidate?
  return { dropped.add .item (layout.place.pass 1) with allowsKey := true }

/-- The question mark before a key. -/
def key? (layout : Layout) : Option Layout := do
  if !layout.inFlow && !layout.allowsKey then none
  let opened := layout.openBlock layout.place.column layout.count .blockMappingStart
  let dropped ← opened.dropCandidate?
  return { dropped.add .key (layout.place.pass 1) with allowsKey := !layout.inFlow }

/-- The colon before a value. -/
def value? (layout : Layout) : Option Layout := do
  let next := layout.place.pass 1
  match ← layout.keyHere? with
  | some candidate =>
      let keyed := layout.insert candidate.number .key
      let opened := keyed.openBlock candidate.start.column candidate.number .blockMappingStart
      return { opened.add .value next with candidate := none, allowsKey := false }
  | none =>
      if !layout.inFlow && !layout.allowsKey then none
      let opened := layout.openBlock layout.place.column layout.count .blockMappingStart
      return { opened.add .value next with candidate := none, allowsKey := !layout.inFlow }

/-- A token that may open a key and behind which no key begins. -/
def word? (layout : Layout) (token : Token) (next : Place) : Option Layout := do
  return { (← layout.noteCandidate?).add token next with allowsKey := false }

def anchor? (layout : Layout) (token : String → Token) : Option Layout := do
  let behind := layout.place.pass 1
  let name ← anchorName? behind.rest
  layout.word? (token (String.ofList name)) (behind.pass name.length)

/-- A tag, which may touch nothing but a comma between brackets. -/
def tag? (fuel : Nat) (layout : Layout) : Option Layout := do
  let (token, rest) ← Yaml.tag? fuel layout.place.rest
  if !endsWord rest && !(layout.inFlow && rest.head? == some ',') then none
  layout.word? token (layout.place.pass (layout.place.rest.length - rest.length))

def directive? (fuel : Nat) (layout : Layout) : Option Layout := do
  let behind := layout.place.pass 1
  let (token, rest) ← Yaml.directive? fuel behind.rest
  layout.separator? token (← restOfLine? (behind.pass (behind.rest.length - rest.length)))

def block? (fuel : Nat) (layout : Layout) (isLiteral : Bool) : Option Layout := do
  let dropped ← layout.dropCandidate?
  let (text, last) ← Yaml.block? isLiteral layout.margin fuel (layout.place.pass 1)
  return { dropped.add (.scalar false (String.ofList text)) last with allowsKey := true }

def quoted? (fuel : Nat) (layout : Layout) (quote : Char) : Option Layout := do
  let (text, last) ← Yaml.quoted? quote fuel (layout.place.pass 1)
  layout.word? (.scalar false (String.ofList text)) last

def plain? (fuel : Nat) (layout : Layout) : Option Layout := do
  let plain ← Yaml.plain? layout.inFlow layout.margin fuel layout.place
  let added ← layout.word? (.scalar true (String.ofList plain.text)) plain.last
  return { added with allowsKey := plain.endsLine }

def token? (fuel : Nat) (layout : Layout) (c : Char) (rest : List Char) : Option Layout :=
  let place := layout.place
  let standsAlone := layout.inFlow || endsWord rest
  if place.column = 0 ∧ c = '%' then layout.directive? fuel
  else if place.opensMarker '-' then layout.separator? .documentStart (place.pass 3)
  else if place.opensMarker '.' then layout.separator? .documentEnd (place.pass 3)
  else if c = '[' then layout.openFlow? .flowSequenceStart
  else if c = '{' then layout.openFlow? .flowMappingStart
  else if c = ']' then layout.closeFlow? .flowSequenceEnd
  else if c = '}' then layout.closeFlow? .flowMappingEnd
  else if c = ',' then layout.comma?
  else if c = '-' ∧ endsWord rest then layout.item?
  else if c = '?' ∧ standsAlone then layout.key?
  else if c = ':' ∧ standsAlone then layout.value?
  else if c = '*' then layout.anchor? .reference
  else if c = '&' then layout.anchor? .anchor
  else if c = '!' then layout.tag? fuel
  else if c = '|' ∧ !layout.inFlow then layout.block? fuel true
  else if c = '>' ∧ !layout.inFlow then layout.block? fuel false
  else if c = '\'' ∨ c = '"' then layout.quoted? fuel c
  else if opensPlain layout.inFlow (c :: rest) then layout.plain? fuel
  else none

/-! ## Texts -/

/-- Pass over blanks, comments and line breaks. Tabs may not stand where a key of a block may
begin, and outside of brackets a key may begin on every line. A byte order mark may open a line. -/
def passIdle (inFlow : Bool) : (fuel : Nat) → (allowsKey : Bool) → Place → Bool × Place
  | 0, allowsKey, place => (allowsKey, place)
  | fuel + 1, allowsKey, place =>
      let isMarked := place.column == 0 && place.rest.head? == some '\ufeff'
      let place := if isMarked then place.pass 1 else place
      let place := place.passWhile fun c => c == ' ' || (c == '\t' && (inFlow || !allowsKey))
      let place := if place.rest.head? == some '#' then place.passWhile (!isBreak ·) else place
      match place.break? with
      | some (_, next) => passIdle inFlow fuel (allowsKey || !inFlow) next
      | none => (allowsKey, place)

/-- Go on to the next token, and close the blocks that end before it. -/
def toNext (fuel : Nat) (layout : Layout) : Layout :=
  let (allowsKey, place) := passIdle layout.inFlow fuel layout.allowsKey layout.place
  { layout with allowsKey, place }.closeBlocks (place.column + 1)

/-- The tokens of a text of which some were read. There are fewer than `fuel` characters left, and
every step passes one. -/
def finish? (fuel : Nat) : (steps : Nat) → Layout → Option (List Token)
  | 0, _ => none
  | steps + 1, layout =>
      let next := layout.toNext fuel
      match next.place.rest with
      | [] => (next.closeBlocks 0).dropCandidate?.map (·.tokens.reverse)
      | c :: rest => (next.token? fuel c rest).bind (finish? fuel steps)

end Layout

/-- The tokens of a text, if it holds only characters that are allowed. -/
def Token.ofText? (text : String) : Option (List Token) :=
  let written := text.toList
  if written.all isAllowed then
    (Layout.start written).finish? (written.length + 1) (written.length + 1)
  else
    none

end QueryPaging.Yaml
