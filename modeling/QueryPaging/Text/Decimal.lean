/-!
# Decimal integers
-/

namespace QueryPaging.Decimal

/-- The number a run of digits spells. -/
def magnitude (digits : List Char) : Nat :=
  digits.foldl (fun total digit => total * 10 + (digit.toNat - '0'.toNat)) 0

/-- The integer spelled by digits with an optional minus sign before them. -/
def integer : List Char → Int
  | '-' :: digits => -(magnitude digits : Int)
  | digits => (magnitude digits : Int)

/-- The integer as a 32-bit word, if it fits. -/
def word32? (value : Int) : Option Int32 :=
  if Int32.minValue.toInt ≤ value ∧ value ≤ Int32.maxValue.toInt then
    some (Int32.ofInt value)
  else
    none

end QueryPaging.Decimal
