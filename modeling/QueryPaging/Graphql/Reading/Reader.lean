import QueryPaging.Graphql.Token

/-!
# Reading tokens

`Reader` takes tokens from the front of a list and may fail. It remembers where the last token
taken ended, which is where the part being read ends.
-/

namespace QueryPaging

/-- The tokens not yet taken, and the offset at which the last one taken ended. -/
structure Cursor where
  rest : List Token
  reached : Nat

abbrev Reader (α : Type) := StateT Cursor Option α

namespace Reader

variable {α : Type}

def peek : Reader (Option Lexeme) := do
  return (← get).rest.head?.map (·.lexeme)

/-- The lexeme after the next one, unless a comma stands before it. -/
def peekSecond : Reader (Option Lexeme) := do
  return ((← get).rest[1]?.filter (!·.followsComma)).map (·.lexeme)

/-- Two tokens that are known by being next to each other have no comma between them: here the
next token may not follow one. -/
def joined : Reader Unit := do
  if (← get).rest.head?.any (·.followsComma) then failure else pure ()

/-- The offset at which the next token starts. -/
def position : Reader Nat := do
  let cursor ← get
  return (cursor.rest.head?.map (·.span.start)).getD cursor.reached

/-- Take the next token, whatever it is. -/
def advance : Reader Lexeme := do
  match (← get).rest with
  | [] => failure
  | token :: rest =>
      set (Cursor.mk rest token.span.stop)
      return token.lexeme

/-- Whether the next token is this lexeme. -/
def sees (lexeme : Lexeme) : Reader Bool := do
  return (← peek) == some lexeme

/-- Take the next token, which must be this lexeme. -/
def expect (lexeme : Lexeme) : Reader Unit := do
  if (← advance) = lexeme then pure () else failure

def mark (c : Char) : Reader Unit :=
  expect (.mark c)

/-- Take the next token if it is this lexeme, and say whether it was. -/
def accept (lexeme : Lexeme) : Reader Bool := do
  if ← sees lexeme then
    let _ ← advance
    return true
  else
    return false

/-- Take the next token, which must be a name. -/
def name : Reader Name := do
  match ← advance with
  | .name name => return name
  | _ => failure

/-- The name that comes next, if a name comes next. -/
def peekName : Reader (Option Name) := do
  match ← peek with
  | some (.name name) => return some name
  | _ => return none

/-- Whether the name that comes next is spelled this way. -/
def seesWord (word : String) : Reader Bool := do
  return (← peekName).any (·.text == word)

/-- Take the next token, which must be the name spelled this way. -/
def word (word : String) : Reader Unit := do
  if (← name).text = word then pure () else failure

/-- Read a part that is introduced by a lexeme, or nothing if that lexeme does not come next. -/
def whenSees (lexeme : Lexeme) (part : Reader α) : Reader (Option α) := do
  if ← sees lexeme then some <$> part else return none

/-- Read parts as long as the next lexeme may open one, at most `bound` of them. -/
def partsUpTo (opens : Lexeme → Bool) (part : Reader α) : Nat → Reader (List α)
  | 0 => return []
  | bound + 1 => do
      if (← peek).any opens then
        let first ← part
        return first :: (← partsUpTo opens part bound)
      else
        return []

/-- Read parts as long as the next lexeme may open one. Every part takes a token, so there are
at most as many parts as tokens. -/
def parts (opens : Lexeme → Bool) (part : Reader α) : Reader (List α) := do
  partsUpTo opens part (← get).rest.length

/-- Read at least one part. -/
def someParts (opens : Lexeme → Bool) (part : Reader α) : Reader (List α) := do
  let first ← part
  return first :: (← parts opens part)

/-- Read parts with a mark between them; the mark may also stand before the first. -/
def separated (separator : Char) (part : Reader α) : Reader (List α) := do
  let _ ← accept (.mark separator)
  let first ← part
  let others ← parts (· == .mark separator) (mark separator *> part)
  return first :: others

def opensName : Lexeme → Bool
  | .name _ => true
  | _ => false

def opensDescribed : Lexeme → Bool
  | .name _ => true
  | .string _ => true
  | _ => false

/-- Read all tokens of a text. -/
def run (reader : Reader α) (text : String) : Option α := do
  let tokens ← Token.ofText? text
  let (result, cursor) ← StateT.run reader ⟨tokens, 0⟩
  if cursor.rest.isEmpty then some result else none

end Reader

end QueryPaging
