import QueryPaging.Text.Decimal
import QueryPaging.Text.Escape
import QueryPaging.Yaml.Place

/-!
# YAML tokens

A text is a row of tokens. The start and the end of a block, and the fact that something is a key,
have no marks of their own in the text and are tokens all the same.

Below the tokens stand the readers of names: anchors, tags and directives.
-/

namespace QueryPaging.Yaml

inductive Token where
  | version (major minor : Nat)
  /-- What a handle stands for in the tags of the document. -/
  | handle (handle meaning : String)
  | documentStart
  | documentEnd
  | blockSequenceStart
  | blockMappingStart
  | blockEnd
  | flowSequenceStart
  | flowSequenceEnd
  | flowMappingStart
  | flowMappingEnd
  /-- The dash before an item of a block sequence. -/
  | item
  | comma
  | key
  | value
  | reference (name : String)
  | anchor (name : String)
  | tag (handle suffix : String)
  | scalar (isPlain : Bool) (text : String)
deriving DecidableEq

/-! ## Anchors -/

def anchorName? (text : List Char) : Option (List Char) :=
  let name := text.takeWhile isNameCharacter
  let rest := text.drop name.length
  let isEnded := endsWord rest || rest.head?.any ("?:,]\x7d%@\x60".toList.contains ·)
  if !name.isEmpty && isEnded then some name else none

/-! ## Tags -/

/-- The part of a tag that may be a handle: an exclamation mark, and perhaps a name and another
exclamation mark. -/
def tagHandle? : List Char → Option (List Char)
  | '!' :: rest =>
      let name := rest.takeWhile isNameCharacter
      let closing := (rest.drop name.length).take 1 |>.filter (· == '!')
      some ('!' :: name ++ closing)
  | _ => none

/-- Whether a handle is closed by an exclamation mark of its own. -/
def isClosedHandle (handle : List Char) : Bool :=
  1 < handle.length && handle.getLast? == some '!'

/-- The characters of tags. A verbatim tag may hold some marks too. -/
def isTagCharacter (isVerbatim : Bool) (c : Char) : Bool :=
  isNameCharacter c || ";/?:@&=+$.!~*'()".toList.contains c
    || (isVerbatim && ",[]".toList.contains c)

/-- How many octets a character takes up that opens with an octet. -/
def octetCount? (octet : Nat) : Option Nat :=
  if octet < 0x80 then some 1
  else if 0xC0 ≤ octet ∧ octet < 0xE0 then some 2
  else if 0xE0 ≤ octet ∧ octet < 0xF0 then some 3
  else if 0xF0 ≤ octet ∧ octet < 0xF8 then some 4
  else none

/-- An octet that is written as a percent sign and two digits. -/
def octet? : List Char → Option Nat
  | '%' :: rest => Escape.hexPrefix? 2 rest
  | _ => none

def moreOctets? (value : Nat) : Nat → List Char → Option Nat
  | 0, _ => some value
  | count + 1, text => do
      let octet ← octet? text
      if octet < 0x80 ∨ 0xC0 ≤ octet then none
      moreOctets? (value * 0x40 + octet % 0x40) count (text.drop 3)

/-- A character that is written as its octets, and how many octets these are. -/
def escapedCharacter? (text : List Char) : Option (Char × Nat) := do
  let octet ← octet? text
  let count ← octetCount? octet
  let first := if count = 1 then octet else octet % (0x80 >>> count)
  let code ← moreOctets? first (count - 1) (text.drop 3)
  return ((Escape.scalar? code).getD '\ufffd', count)

/-- The characters of a tag that open a text, and what follows them. -/
def tagText? (isVerbatim : Bool) : (fuel : Nat) → List Char → Option (List Char × List Char)
  | 0, _ => none
  | _, [] => some ([], [])
  | fuel + 1, c :: rest =>
      if c == '%' then do
        let (meant, count) ← escapedCharacter? (c :: rest)
        let (text, after) ← tagText? isVerbatim fuel ((c :: rest).drop (3 * count))
        return (meant :: text, after)
      else if isTagCharacter isVerbatim c then do
        let (text, after) ← tagText? isVerbatim fuel rest
        return (c :: text, after)
      else
        some ([], c :: rest)

/-- At least one character of a tag. -/
def someTagText? (isVerbatim : Bool) (fuel : Nat) (text : List Char) :
    Option (List Char × List Char) := do
  let (name, rest) ← tagText? isVerbatim fuel text
  if name.isEmpty then none else some (name, rest)

/-- A tag that opens a text, and what follows it. A tag without a handle of its own has the
handle of a single mark, and a mark by itself has none. -/
def tag? (fuel : Nat) (text : List Char) : Option (Token × List Char) := do
  match text with
  | '!' :: '<' :: verbatim =>
      let (name, rest) ← someTagText? true fuel verbatim
      match rest with
      | '>' :: rest => return (.tag "" (String.ofList name), rest)
      | _ => none
  | _ =>
      let handle ← tagHandle? text
      let rest := text.drop handle.length
      if isClosedHandle handle then
        let (suffix, rest) ← someTagText? false fuel rest
        return (.tag (String.ofList handle) (String.ofList suffix), rest)
      else
        let (more, rest) ← tagText? false fuel rest
        let suffix := handle.drop 1 ++ more
        if suffix.isEmpty then return (.tag "" "!", rest)
        else return (.tag "!" (String.ofList suffix), rest)

/-! ## Directives -/

/-- A number of at most nine digits, and what follows it. -/
def versionNumber? (text : List Char) : Option (Nat × List Char) :=
  let digits := text.takeWhile Char.isDigit
  if digits.isEmpty || 9 < digits.length then none
  else some (Decimal.magnitude digits, text.drop digits.length)

/-- A directive, behind its mark, and what follows it. -/
def directive? (fuel : Nat) (text : List Char) : Option (Token × List Char) := do
  let name := text.takeWhile isNameCharacter
  let rest := text.drop name.length
  if !endsWord rest then none
  let rest := rest.dropWhile isBlank
  if name = "YAML".toList then
    let (major, rest) ← versionNumber? rest
    match rest with
    | '.' :: rest =>
        let (minor, rest) ← versionNumber? rest
        return (.version major minor, rest)
    | _ => none
  else if name = "TAG".toList then
    let handle ← tagHandle? rest
    if handle ≠ ['!'] ∧ !isClosedHandle handle then none
    let rest := rest.drop handle.length
    if !rest.head?.any isBlank then none
    let (meaning, rest) ← someTagText? true fuel (rest.dropWhile isBlank)
    if !endsWord rest then none
    return (.handle (String.ofList handle) (String.ofList meaning), rest)
  else
    none

end QueryPaging.Yaml
