import QueryPaging.Json.Basic
import QueryPaging.Text.Escape

/-!
# Writing JSON

Compact text has no blanks. Pretty text puts each item and entry on a line of its own, indented by
two blanks a level.
-/

namespace QueryPaging.Json

/-- A character as it is written in a text. -/
def escape (c : Char) : List Char :=
  if c = '"' then ['\\', '"']
  else if c = '\\' then ['\\', '\\']
  else if c = '\x08' then ['\\', 'b']
  else if c = '\x0c' then ['\\', 'f']
  else if c = '\n' then ['\\', 'n']
  else if c = '\r' then ['\\', 'r']
  else if c = '\t' then ['\\', 't']
  else if c.toNat < 0x20 then
    '\\' :: 'u' :: Escape.fourDigits 'a' c
  else [c]

def quote (text : String) : String :=
  String.ofList ('"' :: text.toList.flatMap escape ++ ['"'])

/-- Half of a surrogate pair, which spells no text. -/
def garbledText : String :=
  "\"\\ud800\""

/-- The values that hold no others. -/
def renderBoolean (truth : Bool) : String :=
  if truth then "true" else "false"

mutual

/-- Compact text. -/
def render : Json → String
  | .null => "null"
  | .boolean truth => renderBoolean truth
  | .integer value => toString value
  | .decimal digits => digits
  | .string text => quote text
  | .garbled => garbledText
  | .array items => "[" ++ ",".intercalate (renderItems items) ++ "]"
  | .object entries => "\x7b" ++ ",".intercalate (renderEntries entries) ++ "\x7d"

def renderItems : List Json → List String
  | [] => []
  | item :: items => item.render :: renderItems items

def renderEntries : List (String × Json) → List String
  | [] => []
  | (key, value) :: entries => (quote key ++ ":" ++ value.render) :: renderEntries entries

end

/-- The start of a line at an indentation level. -/
def newline (level : Nat) : String :=
  "\n" ++ String.ofList (List.replicate (2 * level) ' ')

/-- Texts between two marks, each on a line of its own one level deeper. -/
def block (opening closing : String) (level : Nat) (texts : List String) : String :=
  if texts.isEmpty then
    opening ++ closing
  else
    opening ++ newline (level + 1) ++ ("," ++ newline (level + 1)).intercalate texts
      ++ newline level ++ closing

mutual

/-- Pretty text that starts at an indentation level. -/
def prettyAt (level : Nat) : Json → String
  | .null => "null"
  | .boolean truth => renderBoolean truth
  | .integer value => toString value
  | .decimal digits => digits
  | .string text => quote text
  | .garbled => garbledText
  | .array items => block "[" "]" level (prettyItems (level + 1) items)
  | .object entries => block "\x7b" "\x7d" level (prettyEntries (level + 1) entries)

def prettyItems (level : Nat) : List Json → List String
  | [] => []
  | item :: items => item.prettyAt level :: prettyItems level items

def prettyEntries (level : Nat) : List (String × Json) → List String
  | [] => []
  | (key, value) :: entries =>
      (quote key ++ ": " ++ value.prettyAt level) :: prettyEntries level entries

end

def pretty (value : Json) : String :=
  value.prettyAt 0

end QueryPaging.Json
