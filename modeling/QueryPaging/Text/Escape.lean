/-!
# Escapes by code point

Characters written as hexadecimal code units. A character beyond the basic plane may be written as
two surrogate units, and a surrogate by itself stands for no character.
-/

namespace QueryPaging.Escape

/-- The value of a hexadecimal digit. -/
def hexDigit? (c : Char) : Option Nat :=
  if '0' ≤ c ∧ c ≤ '9' then some (c.toNat - '0'.toNat)
  else if 'a' ≤ c ∧ c ≤ 'f' then some (c.toNat - 'a'.toNat + 10)
  else if 'A' ≤ c ∧ c ≤ 'F' then some (c.toNat - 'A'.toNat + 10)
  else none

def hexNumber? (digits : List Char) : Option Nat :=
  digits.foldl
    (fun total digit => do return (← total) * 16 + (← hexDigit? digit)) (some 0)

/-- The number spelled by the first `count` characters, all of them hexadecimal digits. -/
def hexPrefix? (count : Nat) (text : List Char) : Option Nat :=
  let digits := text.take count
  if digits.length = count then hexNumber? digits else none

/-- The character with a code point, unless the code point is a surrogate or too large. -/
def scalar? (code : Nat) : Option Char :=
  if code < 0xD800 ∨ (0xDFFF < code ∧ code < 0x110000) then some (Char.ofNat code) else none

/-- The character joined from two surrogate code units. -/
def joinSurrogates? (high low : Nat) : Option Char :=
  if 0xDC00 ≤ low ∧ low ≤ 0xDFFF then
    scalar? (0x10000 + (high - 0xD800) * 0x400 + (low - 0xDC00))
  else
    none

/-- The character written by the code units that open a text, and how many characters they take
up: four, or ten when a second escape completes a surrogate pair. -/
def units? (text : List Char) : Option (Char × Nat) := do
  let unit ← hexPrefix? 4 text
  if 0xD800 ≤ unit ∧ unit ≤ 0xDBFF then
    match text.drop 4 with
    | '\\' :: 'u' :: more => return (← joinSurrogates? unit (← hexPrefix? 4 more), 10)
    | _ => none
  else
    return (← scalar? unit, 4)

/-- The character a single letter stands for after a backslash. -/
def letter? (c : Char) : Option Char :=
  if c = '"' ∨ c = '\\' ∨ c = '/' then some c
  else if c = 'b' then some '\x08'
  else if c = 'f' then some '\x0c'
  else if c = 'n' then some '\n'
  else if c = 'r' then some '\r'
  else if c = 't' then some '\t'
  else none

/-- A hexadecimal digit, with letters that begin at `a`. -/
def hexCharacter (a : Char) (digit : Nat) : Char :=
  if digit < 10 then Char.ofNat ('0'.toNat + digit) else Char.ofNat (a.toNat + digit - 10)

def fourDigits (a : Char) (c : Char) : List Char :=
  ['0', '0', hexCharacter a (c.toNat / 16), hexCharacter a (c.toNat % 16)]

end QueryPaging.Escape
