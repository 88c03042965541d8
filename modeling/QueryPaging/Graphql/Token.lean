import QueryPaging.Graphql.Name
import QueryPaging.Graphql.StringLiteral
import QueryPaging.Text.Position

/-!
# Tokens

`Token.ofText?` splits a text into tokens, each with the byte range it covers. Commas, blanks,
line ends, byte order marks and comments separate tokens and are otherwise ignored, save that a
token knows whether a comma stands before it.
-/

namespace QueryPaging

/-- What a token says. -/
inductive Lexeme where
  | mark (c : Char)
  | ellipsis
  | name (name : Name)
  | int (digits : String)
  | float (digits : String)
  | string (text : String)
deriving DecidableEq

/-- A lexeme and the byte range it covers. -/
structure Token where
  lexeme : Lexeme
  span : Span
  /-- Whether a comma stands between the token and the one before it. -/
  followsComma : Bool

namespace Token

/-- The characters that are tokens by themselves. -/
def isMark (c : Char) : Bool :=
  "!$&():=@[]{|}".toList.contains c

/-- The characters that may stand between any two tokens. -/
def isIgnored (c : Char) : Bool :=
  c == ',' || c == ' ' || c == '\t' || c == '\n' || c == '\r' || c == '\uFEFF'

def endsLine (c : Char) : Bool :=
  c == '\n' || c == '\r'

/-- The digits that follow a point or an exponent; there must be one. -/
def someDigits? (cs : List Char) : Option (List Char) :=
  let digits := cs.takeWhile Char.isDigit
  if digits.isEmpty then none else some digits

/-- The whole part of a number. A zero stands alone. -/
def wholePart? (cs : List Char) : Option (List Char) := do
  let digits ← someDigits? cs
  if digits.head? = some '0' ∧ 1 < digits.length then none else some digits

/-- The fraction that opens a text, empty when there is no point. -/
def fraction? : List Char → Option (List Char)
  | '.' :: rest => do return '.' :: (← someDigits? rest)
  | _ => some []

/-- The exponent that opens a text, empty when there is none. -/
def exponent? : List Char → Option (List Char)
  | [] => some []
  | e :: rest =>
      if e = 'e' ∨ e = 'E' then do
        let sign := rest.take 1 |>.filter (fun c => c == '+' || c == '-')
        return e :: sign ++ (← someDigits? (rest.drop sign.length))
      else
        some []

/-- The number that opens a text. A point, a letter or an underscore may not follow it. -/
def number? (cs : List Char) : Option (Lexeme × Nat) := do
  let sign := cs.take 1 |>.filter (· == '-')
  let whole ← wholePart? (cs.drop sign.length)
  let integral := sign ++ whole
  let fraction ← fraction? (cs.drop integral.length)
  let exponent ← exponent? (cs.drop (integral.length + fraction.length))
  let written := integral ++ fraction ++ exponent
  match cs.drop written.length with
  | next :: _ => if next = '.' ∨ opensName next then none
  | [] => pure ()
  let text := String.ofList written
  let lexeme := if fraction.isEmpty && exponent.isEmpty then Lexeme.int text else .float text
  return (lexeme, written.length)

/-- The string literal whose opening quote stands before `rest`, and how many characters of
`rest` belong to it. -/
def string? (rest : List Char) : Option (Lexeme × Nat) :=
  match rest with
  | '"' :: '"' :: block => do
      let extent ← StringLiteral.blockExtent? block
      let text := StringLiteral.blockValue (block.take extent)
      return (.string (String.ofList text), extent + 5)
  | _ => do
      let extent ← StringLiteral.quotedExtent? rest
      let text ← StringLiteral.unescape (rest.take extent)
      return (.string (String.ofList text), extent + 1)

/-- The lexeme that opens with `first`, and how many characters of `rest` belong to it. -/
def lexeme? (first : Char) (rest : List Char) : Option (Lexeme × Nat) :=
  if isMark first then
    some (.mark first, 0)
  else if opensName first then do
    let more := rest.takeWhile continuesName
    let name ← Name.ofText? (String.ofList (first :: more))
    return (.name name, more.length)
  else if first = '"' then
    string? rest
  else if first = '.' then
    match rest with
    | '.' :: '.' :: _ => some (.ellipsis, 2)
    | _ => none
  else do
    let (lexeme, count) ← number? (first :: rest)
    return (lexeme, count - 1)

/-- The number of bytes some characters take up. -/
def width (cs : List Char) : Nat :=
  cs.foldl (fun total c => total + c.utf8Size) 0

/-- The tokens of a text that begins at a byte offset, if every part of it is a token or
ignored. -/
def ofChars? (offset : Nat) (followsComma : Bool) : List Char → Option (List Token)
  | [] => some []
  | first :: rest =>
      if isIgnored first then
        ofChars? (offset + first.utf8Size) (followsComma || first == ',') rest
      else if first = '#' then
        let comment := rest.takeWhile (!endsLine ·)
        ofChars? (offset + 1 + width comment) followsComma (rest.drop comment.length)
      else do
        let (lexeme, count) ← lexeme? first rest
        let stop := offset + first.utf8Size + width (rest.take count)
        let later ← ofChars? stop false (rest.drop count)
        return ⟨lexeme, ⟨offset, stop⟩, followsComma⟩ :: later
termination_by cs => cs.length

def ofText? (text : String) : Option (List Token) :=
  ofChars? 0 false text.toList

end Token

end QueryPaging
