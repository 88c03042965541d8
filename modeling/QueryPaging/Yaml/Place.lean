/-!
# Places in a YAML text

Nesting is a matter of columns, and a key has to stand on one line, so a place knows its line and
its column. `Place.break?` and `Place.pass` move a place on; both keep these numbers right.
-/

namespace QueryPaging.Yaml

/-! ## Kinds of characters -/

/-- The characters a text may be made of. -/
def isAllowed (c : Char) : Bool :=
  let code := c.toNat
  c == '\t' || c == '\n' || c == '\r' || (0x20 ≤ code && code ≤ 0x7E) || code == 0x85
    || (0xA0 ≤ code && code != 0xFFFE && code != 0xFFFF)

def isBlank (c : Char) : Bool :=
  c == ' ' || c == '\t'

/-- The characters that separate lines or paragraphs and are not line ends. -/
def isSeparator (c : Char) : Bool :=
  c == '\u2028' || c == '\u2029'

/-- The characters that break a line. -/
def isBreak (c : Char) : Bool :=
  c == '\n' || c == '\r' || c == '\u0085' || isSeparator c

/-- The characters that may stand between two words. -/
def isGap (c : Char) : Bool :=
  isBlank c || isBreak c

def endsWord : List Char → Bool
  | [] => true
  | c :: _ => isGap c

/-- The characters of the names of anchors, handles and directives. -/
def isNameCharacter (c : Char) : Bool :=
  c.isAlphanum || c == '-' || c == '_'

/-! ## Places -/

/-- The rest of a text and where it begins. -/
structure Place where
  /-- How many characters stand before it. -/
  index : Nat
  line : Nat
  column : Nat
  rest : List Char

namespace Place

def start (text : List Char) : Place :=
  ⟨0, 0, 0, text⟩

/-- The place some characters further along on the same line. -/
def pass (place : Place) (count : Nat) : Place :=
  { place with
    index := place.index + count
    column := place.column + count
    rest := place.rest.drop count }

/-- The place behind the characters of a kind. They are not line breaks. -/
def passWhile (place : Place) (kind : Char → Bool) : Place :=
  place.pass (place.rest.takeWhile kind).length

/-- The start of the next line, if the line ends here, and what the line break stands for. All
line ends are one. -/
def break? (place : Place) : Option (Char × Place) :=
  match place.rest with
  | [] => none
  | '\r' :: '\n' :: rest => some ('\n', ⟨place.index + 2, place.line + 1, 0, rest⟩)
  | c :: rest =>
      if isBreak c then
        let meant := if isSeparator c then c else '\n'
        some (meant, ⟨place.index + 1, place.line + 1, 0, rest⟩)
      else none

/-- Whether a line that marks the start or the end of a document begins here: it opens with three
equal characters. -/
def opensMarker (place : Place) (c : Char) : Bool :=
  place.column == 0 && place.rest.take 3 == [c, c, c] && endsWord (place.rest.drop 3)

/-- Whether either marker of documents begins here. -/
def opensAnyMarker (place : Place) : Bool :=
  place.opensMarker '-' || place.opensMarker '.'

end Place

/-! ## Gaps -/

/-- Pass over blanks and line breaks behind a line break, and tell the line breaks. Before the
column `margin` there may be no tabs. -/
def breaks? (margin : Nat) : (fuel : Nat) → Place → Option (List Char × Place)
  | 0, _ => none
  | fuel + 1, place =>
      match place.break? with
      | some (c, next) => do
          let (breaks, last) ← breaks? margin fuel next
          return (c :: breaks, last)
      | none =>
          match place.rest with
          | [] => some ([], place)
          | c :: _ =>
              if !isBlank c then some ([], place)
              else if c == '\t' && place.column < margin then none
              else breaks? margin fuel (place.pass 1)

/-- What stands between two words. -/
structure Gap where
  /-- The blanks before the first line break. -/
  blanks : List Char
  breaks : List Char

/-- Pass over a gap. -/
def gap? (margin fuel : Nat) (place : Place) : Option (Gap × Place) := do
  let blanks := place.rest.takeWhile isBlank
  let (breaks, last) ← breaks? margin fuel (place.pass blanks.length)
  return (⟨blanks, breaks⟩, last)

/-- What line breaks between two words stand for. A single line end counts as a space, and of
several line breaks the first counts for nothing if it is a line end. -/
def fold : List Char → List Char
  | ['\n'] => [' ']
  | '\n' :: others => others
  | breaks => breaks

def Gap.text (gap : Gap) : List Char :=
  if gap.breaks.isEmpty then gap.blanks else fold gap.breaks

end QueryPaging.Yaml
