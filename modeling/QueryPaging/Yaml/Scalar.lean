import QueryPaging.Text.Escape
import QueryPaging.Yaml.Place

/-!
# YAML scalars

The three ways to write a text: plainly, between quotes, and as a block of lines. A plain or quoted
text that goes on over several lines is folded.

Every word, escape, gap and line uses up one unit of `fuel`.
-/

namespace QueryPaging.Yaml

/-! ## Plain scalars -/

/-- The marks that have a meaning between brackets. -/
def isFlowMark (c : Char) : Bool :=
  c == ',' || c == '[' || c == ']' || c == '{' || c == '}'

/-- The characters that no plain scalar opens with. -/
def isReserved (c : Char) : Bool :=
  "-?:,[]\x7b\x7d#&*!|>'\"%@\x60".toList.contains c

def opensPlain (inFlow : Bool) : List Char → Bool
  | [] => false
  | c :: rest =>
      (!isReserved c && !isGap c)
        || (c == '-' && !endsWord rest)
        || (!inFlow && (c == '?' || c == ':') && !endsWord rest)

/-- Whether a word of a plain scalar ends in front of a text. -/
def endsPlain (inFlow : Bool) : List Char → Bool
  | [] => true
  | c :: rest => isGap c || (c == ':' && endsWord rest) || (inFlow && isFlowMark c)

/-- Whether a colon stands in front of a mark between brackets, which it may not. -/
def opensStrayColon (inFlow : Bool) : List Char → Bool
  | ':' :: c :: _ => inFlow && (isFlowMark c || c == '?')
  | _ => false

/-- The word of a plain scalar that opens a text. It may be empty. -/
def plainWord? (inFlow : Bool) : List Char → Option (List Char)
  | [] => some []
  | c :: rest =>
      if opensStrayColon inFlow (c :: rest) then none
      else if endsPlain inFlow (c :: rest) then some []
      else (plainWord? inFlow rest).map (c :: ·)

/-- A text and the place behind it. -/
structure PlainText where
  text : List Char
  /-- Whether lines were broken behind the last word. -/
  endsLine : Bool
  last : Place

/-- The words of a plain scalar. Further lines stand in column `margin` or beyond. -/
def plain? (inFlow : Bool) (margin : Nat) : (fuel : Nat) → Place → Option PlainText
  | 0, _ => none
  | fuel + 1, place =>
      if place.opensAnyMarker || place.rest.head? == some '#' then
        some ⟨[], false, place⟩
      else do
        let word ← plainWord? inFlow place.rest
        let behind := place.pass word.length
        if !behind.rest.head?.any isGap then
          return ⟨word, false, behind⟩
        else
          let (gap, next) ← gap? margin fuel behind
          let alone : PlainText := ⟨word, !gap.breaks.isEmpty, next⟩
          if !inFlow && next.column < margin then
            return alone
          else
            let more ← plain? inFlow margin fuel next
            if more.text.isEmpty then return alone
            else return { more with text := word ++ gap.text ++ more.text }

/-! ## Quoted scalars -/

/-- The character that a single letter stands for after a backslash. -/
def letterEscape? (c : Char) : Option Char :=
  match c with
  | '0' => some '\x00'
  | 'a' => some '\x07'
  | 'b' => some '\x08'
  | 't' => some '\t'
  | '\t' => some '\t'
  | 'n' => some '\n'
  | 'v' => some '\x0b'
  | 'f' => some '\x0c'
  | 'r' => some '\r'
  | 'e' => some '\x1b'
  | ' ' => some ' '
  | '"' => some '"'
  | '/' => some '/'
  | '\\' => some '\\'
  | 'N' => some '\u0085'
  | '_' => some '\u00a0'
  | 'L' => some '\u2028'
  | 'P' => some '\u2029'
  | _ => none

/-- How many hexadecimal digits follow a letter after a backslash. -/
def digitCount? (c : Char) : Option Nat :=
  match c with
  | 'x' => some 2
  | 'u' => some 4
  | 'U' => some 8
  | _ => none

/-- The character an escape stands for and how many characters follow the backslash. -/
def escape? : List Char → Option (Char × Nat)
  | [] => none
  | c :: rest =>
      match digitCount? c with
      | some count => do
          let code ← Escape.hexPrefix? count rest
          return (← Escape.scalar? code, count + 1)
      | none => (letterEscape? c).map (·, 1)

/-- A scalar up to its closing quote. No line inside it may mark a document. Between double quotes
a backslash takes a line break away, and between single quotes a doubled quote is one. -/
def quoted? (quote : Char) : (fuel : Nat) → Place → Option (List Char × Place)
  | 0, _ => none
  | fuel + 1, place =>
      match place.rest with
      | [] => none
      | c :: rest =>
          if c = quote then
            if quote == '\'' && rest.head? == some quote then do
              let (text, last) ← quoted? quote fuel (place.pass 2)
              return (quote :: text, last)
            else
              some ([], place.pass 1)
          else if quote == '"' && c == '\\' then
            if rest.head?.any isBreak then do
              let (breaks, next) ← breaks? 0 fuel (place.pass 1)
              if next.opensAnyMarker then none
              let (text, last) ← quoted? quote fuel next
              return (breaks.drop 1 ++ text, last)
            else do
              let (letter, count) ← escape? rest
              let (text, last) ← quoted? quote fuel (place.pass (count + 1))
              return (letter :: text, last)
          else if isGap c then do
            let (gap, next) ← gap? 0 fuel place
            if next.opensAnyMarker then none
            let (text, last) ← quoted? quote fuel next
            return (gap.text ++ text, last)
          else do
            let (text, last) ← quoted? quote fuel (place.pass 1)
            return (c :: text, last)

/-! ## Blocks of lines -/

/-- What becomes of the line breaks that end a block. -/
inductive Chomping where
  | strip
  | clip
  | keep
deriving DecidableEq

/-- What the first line of a block says about it. -/
structure BlockHeader where
  chomping : Chomping
  /-- By how much the block is indented, if that is said. -/
  indentation : Option Nat

def BlockHeader.mark? (header : BlockHeader) (c : Char) : Option BlockHeader :=
  if c = '+' then some { header with chomping := .keep }
  else if c = '-' then some { header with chomping := .strip }
  else if '1' ≤ c ∧ c ≤ '9' then
    some { header with indentation := some (c.toNat - '0'.toNat) }
  else none

/-- Pass over blanks and a comment to the start of the next line, or to the end of the text. -/
def restOfLine? (place : Place) : Option Place :=
  let behind := place.passWhile isBlank
  let behind :=
    if behind.rest.head? == some '#' then behind.passWhile (!isBreak ·) else behind
  match behind.break? with
  | some (_, next) => some next
  | none => if behind.rest.isEmpty then some behind else none

/-- A header and the line behind it: at most one mark of each kind. -/
def blockHeader? (place : Place) : Option (BlockHeader × Place) := do
  let isSign (c : Char) : Bool := c == '+' || c == '-'
  let marks := place.rest.takeWhile fun c => isSign c || c.isDigit
  if 1 < marks.countP isSign || 1 < marks.countP Char.isDigit then none
  let header ← marks.foldlM BlockHeader.mark? ⟨.clip, none⟩
  return (header, ← restOfLine? (place.pass marks.length))

/-- The line breaks of empty lines, and the greatest column reached on the way to the line behind
them. Spaces count as indentation up to the column `indent`, if that is known, and no tab may
stand among them. -/
def emptyLines? (indent : Option Nat) : (fuel : Nat) → Place → Option (List Char × Nat × Place)
  | 0, _ => none
  | fuel + 1, place =>
      let spaces := (place.rest.takeWhile (· == ' ')).length
      let counted := (indent.map fun column => min spaces (column - place.column)).getD spaces
      let next := place.pass counted
      let isInside := indent.all (next.column < ·)
      if isInside && next.rest.head? == some '\t' then
        none
      else
        match next.break? with
        | some (c, after) => do
            let (breaks, widest, last) ← emptyLines? indent fuel after
            return (c :: breaks, max next.column widest, last)
        | none => some ([], next.column, next)

/-- The line breaks around a line of a block. -/
structure LineEnds where
  /-- The line break of the line itself, if it has one. -/
  own : List Char
  /-- The line breaks of the empty lines behind it. -/
  more : List Char

/-- What the line breaks between two lines of a block stand for. Those of a folded block are
folded, unless one of the lines opens with a blank. -/
def LineEnds.between (isLiteral besideBlank : Bool) (ends : LineEnds) : List Char :=
  if !isLiteral && !besideBlank && ends.own == ['\n'] then fold (ends.own ++ ends.more)
  else ends.own ++ ends.more

/-- The lines of a block whose lines begin in column `indent`, with the line breaks that end it.
`ends` are the line breaks before the line at the place, and `wasBlank` tells whether the line
before them opened with a blank. -/
def blockLines? (isLiteral : Bool) (indent : Nat) :
    (fuel : Nat) → (ends : LineEnds) → (wasBlank : Bool) → Place →
      Option (List Char × LineEnds × Place)
  | 0, _, _, _ => none
  | fuel + 1, ends, wasBlank, place =>
      if place.column ≠ indent ∨ place.rest = [] then
        some ([], ends, place)
      else do
        let isBlankLine := place.rest.head?.any isBlank
        let line := place.rest.takeWhile (!isBreak ·)
        let behind := place.pass line.length
        let (own, next) :=
          match behind.break? with
          | some (c, next) => ([c], next)
          | none => ([], behind)
        let (more, _, next) ← emptyLines? (some indent) fuel next
        let (text, last, next) ← blockLines? isLiteral indent fuel ⟨own, more⟩ isBlankLine next
        return (ends.between isLiteral (wasBlank || isBlankLine) ++ line ++ text, last, next)

/-- What the line breaks that end a block stand for. -/
def Chomping.finish (chomping : Chomping) (ends : LineEnds) : List Char :=
  match chomping with
  | .strip => []
  | .clip => ends.own
  | .keep => ends.own ++ ends.more

/-- A block of lines, from the place behind its indicator on. The block around it keeps to column
`margin` and beyond. When the header does not say how far the block is indented, its first line
that is not empty does. -/
def block? (isLiteral : Bool) (margin fuel : Nat) (place : Place) :
    Option (List Char × Place) := do
  let (header, first) ← blockHeader? place
  let told := header.indentation.map (margin - 1 + ·)
  let (empty, widest, next) ← emptyLines? told fuel first
  let indent := told.getD (max widest (max margin 1))
  let (text, ends, last) ← blockLines? isLiteral indent fuel ⟨[], empty⟩ false next
  return (text ++ header.chomping.finish ends, last)

end QueryPaging.Yaml
