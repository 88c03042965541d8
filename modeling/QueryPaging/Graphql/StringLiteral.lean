import QueryPaging.Text.Escape

/-!
# String literals

A text is written between quotes with escapes, or as a block between triple quotes.

- `unescape` reads what stands between quotes.
- `blockValue` reads what stands between triple quotes: common indentation and blank first and
  last lines are dropped.
- `quote` writes a text between quotes, and `blockLines` the lines of a block that reads back.
-/

namespace QueryPaging.StringLiteral

/-! ## Reading between quotes -/

/-- The character an escape stands for and how many characters follow the backslash, when the
text after the backslash is given. A code point may be written between braces. -/
def escape? : List Char → Option (Char × Nat)
  | 'u' :: '{' :: rest => do
      let digits := rest.takeWhile (· != '}')
      if digits.isEmpty || digits.length == rest.length then none
      let c ← Escape.scalar? (← Escape.hexNumber? digits)
      return (c, digits.length + 3)
  | 'u' :: rest => do
      let (c, count) ← Escape.units? rest
      return (c, count + 1)
  | c :: _ => return (← Escape.letter? c, 1)
  | [] => none

/-- The text written between quotes, if all its escapes are known. -/
def unescape : List Char → Option (List Char)
  | [] => some []
  | '\\' :: rest => do
      let (c, count) ← escape? rest
      return c :: (← unescape (rest.drop count))
  | c :: rest => return c :: (← unescape rest)
termination_by written => written.length

/-- How many characters stand before the closing quote. A line end leaves the text open. -/
def restExtent? : List Char → Option Nat
  | [] => none
  | '"' :: _ => some 0
  | '\n' :: _ => none
  | '\r' :: _ => none
  | '\\' :: _ :: rest => (restExtent? rest).map (· + 2)
  | _ :: rest => (restExtent? rest).map (· + 1)

/-- How many characters stand between an opening and its closing quote. The first of them, and
only the first, may be a line end. -/
def quotedExtent? : List Char → Option Nat
  | '\n' :: rest => (restExtent? rest).map (· + 1)
  | '\r' :: rest => (restExtent? rest).map (· + 1)
  | written => restExtent? written

/-! ## Reading between triple quotes -/

/-- How many characters stand before the closing triple quote. -/
def blockExtent? : List Char → Option Nat
  | [] => none
  | '\\' :: '"' :: '"' :: '"' :: rest => (blockExtent? rest).map (· + 4)
  | '"' :: '"' :: '"' :: _ => some 0
  | _ :: rest => (blockExtent? rest).map (· + 1)

/-- The text with every escaped triple quote replaced by a bare one. -/
def bareTripleQuotes : List Char → List Char
  | [] => []
  | '\\' :: '"' :: '"' :: '"' :: rest => '"' :: '"' :: '"' :: bareTripleQuotes rest
  | c :: rest => c :: bareTripleQuotes rest

/-- The lines of a text. A line feed, a carriage return or the two together end a line. -/
def lines : List Char → List (List Char)
  | [] => [[]]
  | '\r' :: '\n' :: rest => [] :: lines rest
  | '\n' :: rest => [] :: lines rest
  | '\r' :: rest => [] :: lines rest
  | c :: rest =>
      match lines rest with
      | [] => [[c]]
      | line :: others => (c :: line) :: others

def isIndent (c : Char) : Bool :=
  c == ' ' || c == '\t'

def isBlankLine (line : List Char) : Bool :=
  line.all isIndent

def indentOf (line : List Char) : Nat :=
  (line.takeWhile isIndent).length

/-- The least indentation of the lines that are not blank. -/
def commonIndent (lines : List (List Char)) : Nat :=
  (((lines.filter (!isBlankLine ·)).map indentOf).min?).getD 0

/-- The text of a block from what stands between its triple quotes. The first line does not count
towards the common indentation. -/
def blockValue (written : List Char) : List Char :=
  match lines (bareTripleQuotes written) with
  | [] => []
  | first :: others =>
      let flush := first :: others.map (List.drop (commonIndent others))
      let headed := flush.dropWhile isBlankLine
      let trimmed := (headed.reverse.dropWhile isBlankLine).reverse
      List.intercalate ['\n'] trimmed

/-! ## Writing -/

/-- A character as it is written between quotes. -/
def escape (c : Char) : List Char :=
  if c = '"' then ['\\', '"']
  else if c = '\\' then ['\\', '\\']
  else if c = '\n' then ['\\', 'n']
  else if c = '\r' then ['\\', 'r']
  else if c = '\x08' then ['\\', 'b']
  else if c = '\x0c' then ['\\', 'f']
  else if c.toNat < 0x20 ∧ c ≠ '\t' then
    '\\' :: 'u' :: Escape.fourDigits 'A' c
  else [c]

def quote (text : String) : String :=
  String.ofList ('"' :: text.toList.flatMap escape ++ ['"'])

/-- A line of a block, with every triple quote escaped. -/
def escapeTripleQuotes : List Char → List Char
  | [] => []
  | '"' :: '"' :: '"' :: rest => '\\' :: '"' :: '"' :: '"' :: escapeTripleQuotes rest
  | c :: rest => c :: escapeTripleQuotes rest

/-- Whether a block holding the text would read back as the same text. -/
def fitsBlock (text : List Char) : Bool :=
  let written := lines text
  !text.contains '\r'
    && !(written.head?.any isBlankLine)
    && !(written.getLast?.any isBlankLine)
    && commonIndent written == 0

/-- The lines of the block a text is written as, if it spans lines and fits a block. -/
def blockLines? (text : String) : Option (List String) :=
  if text.toList.contains '\n' && fitsBlock text.toList then
    some ((lines text.toList).map (fun line => String.ofList (escapeTripleQuotes line)))
  else
    none

end QueryPaging.StringLiteral
