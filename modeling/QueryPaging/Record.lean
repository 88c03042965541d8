/-!
# Records

The fields of a record are read by name from entries as they were written. Unknown entries are
ignored, and a known one may not repeat.
-/

namespace QueryPaging.Record

variable {Written Item : Type}

/-- Whether no key occurs twice. -/
def distinctKeys : List (String × Written) → Bool
  | [] => true
  | (key, _) :: others => !others.any (·.1 == key) && distinctKeys others

/-- The known fields among some entries. -/
def fields? (known : List String) (entries : List (String × Written)) :
    Option (List (String × Written)) :=
  let fields := entries.filter (known.contains ·.1)
  if distinctKeys fields then some fields else none

/-- The fields given by position. Fields may be missing at the end. -/
def positional? (known : List String) (items : List Written) : Option (List (String × Written)) :=
  if items.length ≤ known.length then some (known.zip items) else none

/-- A field that must be present. -/
def required? (fields : List (String × Written)) (key : String) (read : Written → Option Item) :
    Option Item := do
  read (← fields.lookup key)

/-- A field that takes a default when it is absent. -/
def defaulting? (fields : List (String × Written)) (key : String) (default : Item)
    (read : Written → Option Item) : Option Item :=
  match fields.lookup key with
  | none => some default
  | some value => read value

end QueryPaging.Record
