import QueryPaging.Record

/-!
# JSON values

Objects keep their entries in the order they were written, repeated keys included. A number is
either an integer or a decimal; of a decimal only the text is kept. A string may hold half of a
surrogate pair and then spells no text; such a string, and an object with such a key, can be
passed over but not used.
-/

namespace QueryPaging

inductive Json where
  | null
  | boolean (truth : Bool)
  | integer (value : Int)
  | decimal (digits : String)
  | string (text : String)
  /-- A string that spells no text, or an object with such a key. -/
  | garbled
  | array (items : List Json)
  | object (entries : List (String × Json))

namespace Json

def string? : Json → Option String
  | .string body => some body
  | _ => none

def integer? : Json → Option Int
  | .integer value => some value
  | _ => none

def boolean? : Json → Option Bool
  | .boolean truth => some truth
  | _ => none

def array? : Json → Option (List Json)
  | .array items => some items
  | _ => none

def object? : Json → Option (List (String × Json))
  | .object entries => some entries
  | _ => none

/-- The texts of an array that holds nothing else. -/
def strings? (value : Json) : Option (List String) := do
  (← value.array?).mapM string?

/-- What `read` makes of a value, or nothing where the value is null. -/
def optional? {α : Type} (read : Json → Option α) : Json → Option (Option α)
  | .null => some none
  | value => (read value).map some

def ofStrings (texts : List String) : Json :=
  .array (texts.map .string)

/-- An entry that is left out when there is no value. -/
def entry? {α : Type} (key : String) (write : α → Json) (value : Option α) :
    List (String × Json) :=
  (value.map fun present => (key, write present)).toList

/-- The fields of a record, written as an object or as an array of its fields in order. -/
def record? (known : List String) : Json → Option (List (String × Json))
  | .object entries => Record.fields? known entries
  | .array items => Record.positional? known items
  | _ => none

/-! ## Order of keys -/

/-- Put an entry before the first one with a greater key. An entry with the same key is
replaced. -/
def insertSorted (key : String) (value : Json) : List (String × Json) → List (String × Json)
  | [] => [(key, value)]
  | (first, old) :: others =>
      if key = first then (key, value) :: others
      else if key < first then (key, value) :: (first, old) :: others
      else (first, old) :: insertSorted key value others

mutual

/-- The same value with the keys of every object in increasing order. -/
def sorted : Json → Json
  | .array items => .array (sortedItems items)
  | .object entries => .object (sortedEntries entries)
  | .null => .null
  | .boolean truth => .boolean truth
  | .integer value => .integer value
  | .decimal digits => .decimal digits
  | .string body => .string body
  | .garbled => .garbled

def sortedItems : List Json → List Json
  | [] => []
  | item :: items => item.sorted :: sortedItems items

def sortedEntries : List (String × Json) → List (String × Json)
  | [] => []
  | (key, value) :: entries => insertSorted key value.sorted (sortedEntries entries)

end

end Json

end QueryPaging
