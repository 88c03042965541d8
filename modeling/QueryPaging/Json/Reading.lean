import QueryPaging.Json.Basic
import QueryPaging.Text.Escape
import QueryPaging.Text.Decimal

/-!
# Reading JSON

Each reader takes a value from the front of a text and answers it with what follows. Every step
into an array or object uses up one unit of `fuel`; a text never nests deeper than it is long.
-/

namespace QueryPaging.Json

def isBlank (c : Char) : Bool :=
  c == ' ' || c == '\t' || c == '\n' || c == '\r'

def skipBlanks (text : List Char) : List Char :=
  text.dropWhile isBlank

/-- The character an escape stands for and how many characters follow the backslash, when the
text after the backslash is given. Half of a surrogate pair stands for no character. -/
def escape? : List Char → Option (Option Char × Nat)
  | 'u' :: rest =>
      match Escape.units? rest with
      | some (c, count) => some (some c, count + 1)
      | none => (Escape.hexPrefix? 4 rest).map fun _ => (none, 5)
  | c :: _ => (Escape.letter? c).map fun meant => (some meant, 1)
  | [] => none

/-- The text up to its closing quote, with escapes resolved, if it is a text, and what follows the
quote. Control characters have to be escaped. -/
def textBody? : List Char → Option (Option (List Char) × List Char)
  | [] => none
  | '"' :: rest => some (some [], rest)
  | '\\' :: rest => do
      let (c, count) ← escape? rest
      let (text, rest) ← textBody? (rest.drop count)
      return (do return (← c) :: (← text), rest)
  | c :: rest =>
      if c.toNat < 0x20 then
        none
      else do
        let (text, rest) ← textBody? rest
        return (text.map (c :: ·), rest)
termination_by text => text.length

def ofBody (body : Option (List Char)) : Json :=
  match body with
  | some text => .string (String.ofList text)
  | none => .garbled

def ofEntries (entries : Option (List (String × Json))) : Json :=
  match entries with
  | some entries => .object entries
  | none => .garbled

/-- The digits that open a text; there must be one. -/
def someDigits? (text : List Char) : Option (List Char × List Char) :=
  let digits := text.takeWhile Char.isDigit
  if digits.isEmpty then none else some (digits, text.dropWhile Char.isDigit)

/-- A fraction and an exponent, either of which may be missing. -/
def decimalPart? (text : List Char) : Option (List Char × List Char) := do
  let (fraction, rest) ← match text with
    | '.' :: after => do
        let (digits, rest) ← someDigits? after
        pure ('.' :: digits, rest)
    | _ => pure ([], text)
  match rest with
  | e :: after =>
      if e = 'e' ∨ e = 'E' then do
        let sign := after.take 1 |>.filter (fun c => c == '+' || c == '-')
        let (digits, rest) ← someDigits? (after.drop sign.length)
        return (fraction ++ e :: sign ++ digits, rest)
      else
        return (fraction, rest)
  | [] => return (fraction, rest)

/-- A number. Negative zero is not an integer. -/
def number? (text : List Char) : Option (Json × List Char) := do
  let sign := text.take 1 |>.filter (· == '-')
  let (digits, rest) ← someDigits? (text.drop sign.length)
  if digits.head? = some '0' ∧ 1 < digits.length then none
  let (part, rest) ← decimalPart? rest
  let whole := sign ++ digits
  if part.isEmpty ∧ whole ≠ ['-', '0'] then
    return (.integer (Decimal.integer whole), rest)
  else
    return (.decimal (String.ofList (whole ++ part)), rest)

mutual

/-- A value, possibly after blanks. -/
def value? : (fuel : Nat) → List Char → Option (Json × List Char)
  | 0, _ => none
  | fuel + 1, text =>
      match skipBlanks text with
      | '"' :: rest => do
          let (body, rest) ← textBody? rest
          return (ofBody body, rest)
      | '[' :: rest =>
          match skipBlanks rest with
          | ']' :: rest => some (.array [], rest)
          | rest => do
              let (items, rest) ← items? fuel rest
              return (.array items, rest)
      | '{' :: rest =>
          match skipBlanks rest with
          | '}' :: rest => some (.object [], rest)
          | rest => do
              let (entries, rest) ← entries? fuel rest
              return (ofEntries entries, rest)
      | 'n' :: 'u' :: 'l' :: 'l' :: rest => some (.null, rest)
      | 't' :: 'r' :: 'u' :: 'e' :: rest => some (.boolean true, rest)
      | 'f' :: 'a' :: 'l' :: 's' :: 'e' :: rest => some (.boolean false, rest)
      | rest => number? rest

/-- One or more items and the bracket that ends them. -/
def items? : (fuel : Nat) → List Char → Option (List Json × List Char)
  | 0, _ => none
  | fuel + 1, text => do
      let (item, rest) ← value? fuel text
      match skipBlanks rest with
      | ',' :: rest =>
          let (items, rest) ← items? fuel rest
          return (item :: items, rest)
      | ']' :: rest => return ([item], rest)
      | _ => none

/-- One or more entries, if their keys are texts, and the brace that ends them. -/
def entries? : (fuel : Nat) → List Char → Option (Option (List (String × Json)) × List Char)
  | 0, _ => none
  | fuel + 1, text =>
      match skipBlanks text with
      | '"' :: rest => do
          let (key, rest) ← textBody? rest
          match skipBlanks rest with
          | ':' :: rest => do
              let (value, rest) ← value? fuel rest
              let entry := key.map fun key => (String.ofList key, value)
              match skipBlanks rest with
              | ',' :: rest =>
                  let (entries, rest) ← entries? fuel rest
                  return (do return (← entry) :: (← entries), rest)
              | '}' :: rest => return (entry.map fun entry => [entry], rest)
              | _ => none
          | _ => none
      | _ => none

end

/-- The value a text holds and nothing else. -/
def ofText? (text : String) : Option Json := do
  let written := text.toList
  let (value, rest) ← value? (2 * written.length + 1) written
  if (skipBlanks rest).isEmpty then some value else none

end QueryPaging.Json
