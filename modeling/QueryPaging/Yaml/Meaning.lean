import QueryPaging.Text.Decimal
import QueryPaging.Text.Escape

/-!
# The meaning of plain scalars

A plain scalar may stand for nothing, for a truth value or for a number. A number that is too large
to be held is a text like any other.
-/

namespace QueryPaging.Yaml

def isNullWord (text : String) : Bool :=
  ["~", "null", "Null", "NULL"].contains text

/-- Whether a plain scalar stands for nothing. -/
def meansNull (text : String) : Bool :=
  text.isEmpty || isNullWord text

/-- Whether a plain scalar is a truth value. -/
def meansBoolean (text : String) : Bool :=
  ["true", "True", "TRUE", "false", "False", "FALSE"].contains text

/-! ## Whole numbers -/

def areDigits (isDigit : Char → Bool) (text : List Char) : Bool :=
  !text.isEmpty && text.all isDigit

def isBinary (c : Char) : Bool := c == '0' || c == '1'
def isOctal (c : Char) : Bool := '0' ≤ c && c ≤ '7'
def isHexadecimal (c : Char) : Bool := (Escape.hexDigit? c).isSome

def number (base : Nat) (digits : List Char) : Nat :=
  digits.foldl (fun total digit => total * base + (Escape.hexDigit? digit).getD 0) 0

/-- Whether a text without its sign is a whole number of some base other than ten, and no larger
than `most`. -/
def isBased (most : Nat) : List Char → Bool
  | '0' :: 'x' :: digits => areDigits isHexadecimal digits && number 16 digits ≤ most
  | '0' :: 'o' :: digits => areDigits isOctal digits && number 8 digits ≤ most
  | '0' :: 'b' :: digits => areDigits isBinary digits && number 2 digits ≤ most
  | _ => false

/-! ## Decimal numbers -/

/-- The least number that rounds to infinity: halfway between the largest number with a binary
exponent below 1024 and a mantissa of 53 bits, and the next power of two. -/
def overflow : Nat :=
  (1 <<< 54 - 1) <<< 970

/-- Whether the number that digits spell, times a power of ten, is too large to be held. -/
def overflows (digits : List Char) (power : Int) : Bool :=
  let significant := digits.dropWhile (· == '0')
  let places := significant.length + power
  if significant.isEmpty || places < 309 then false
  else if 309 < places then true
  else
    overflow * Nat.pow 10 (-power).toNat ≤ Decimal.magnitude significant * Nat.pow 10 power.toNat

/-- The power of ten that an exponent spells; nothing at all spells the power zero. -/
def exponent? : List Char → Option Int
  | [] => some 0
  | e :: text =>
      let digits := match text with
        | '+' :: rest => rest
        | '-' :: rest => rest
        | _ => text
      if (e == 'e' || e == 'E') && areDigits Char.isDigit digits then
        let power : Int := Decimal.magnitude digits
        some (if text.head? == some '-' then -power else power)
      else
        none

/-- The digits of a decimal number before and behind its point, and what follows them. -/
def decimalDigits (text : List Char) : List Char × List Char × List Char :=
  let whole := text.takeWhile Char.isDigit
  match text.dropWhile Char.isDigit with
  | '.' :: rest => (whole, rest.takeWhile Char.isDigit, rest.dropWhile Char.isDigit)
  | rest => (whole, [], rest)

/-- Whether a text without its sign is a decimal number that can be held. A whole number that opens
with a superfluous zero is none. -/
def isDecimal (text : List Char) : Bool :=
  let (whole, fraction, rest) := decimalDigits text
  let isPadded := text.length == whole.length && 1 < whole.length && whole.head? == some '0'
  if (whole.isEmpty && fraction.isEmpty) || isPadded then
    false
  else
    match exponent? rest with
    | none => false
    | some power => !overflows (whole ++ fraction) (power - fraction.length)

/-! ## Numbers -/

/-- The spellings of infinity, and of what is not a number. -/
def specialNumbers : List String :=
  [".inf", ".Inf", ".INF", "+.inf", "+.Inf", "+.INF", "-.inf", "-.Inf", "-.INF",
    ".nan", ".NaN", ".NAN"]

/-- Whether a plain scalar is a number. Whole numbers of other bases than ten have 128 bits. -/
def meansNumber (text : String) : Bool :=
  let (most, body) := match text.toList with
    | '+' :: rest => (1 <<< 128 - 1, rest)
    | '-' :: rest => (1 <<< 127, rest)
    | body => (1 <<< 128 - 1, body)
  isBased most body || isDecimal body || specialNumbers.contains text

/-- Whether a plain scalar is a text and nothing else. -/
def meansText (text : String) : Bool :=
  !meansNull text && !meansBoolean text && !meansNumber text

end QueryPaging.Yaml
