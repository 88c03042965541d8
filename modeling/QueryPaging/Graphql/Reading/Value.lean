import QueryPaging.Graphql.Reading.Reader
import QueryPaging.Graphql.Syntax

/-!
# Reading values, types and directives

Nesting is limited: every list item, object entry and list type takes one level, and a text that
needs more levels than it has left does not read.

An argument or object entry may be written without a value; it then says nothing and is dropped.
-/

namespace QueryPaging.Reader

/-- How deeply a document may nest. -/
def nestingLimit : Nat := 500

def wordValue (word : Name) : Value :=
  if word.text = "true" then .boolean true
  else if word.text = "false" then .boolean false
  else if word.text = "null" then .null
  else .enum word

/-- A name with the value after it, if there is one. -/
def entry (value : Reader Value) : Reader (Option (Name × Value)) := do
  let key ← name
  if ← accept (.mark ':') then
    return some (key, ← value)
  else
    return none

/-- A value whose items and entries are read by `nested`. Constants hold no variables. -/
def valueOver (constant : Bool) (nested : Reader Value) : Reader Value := do
  match ← advance with
  | .mark '$' => if constant then failure else return .reference (← name)
  | .int digits => return .int digits
  | .float digits => return .float digits
  | .string text => return .string text
  | .name word => return wordValue word
  | .mark '[' =>
      let items ← parts (· != .mark ']') nested
      mark ']'
      return .list items
  | .mark '{' =>
      let entries ← parts opensName (entry nested)
      mark '}'
      return .object (entries.filterMap id)
  | _ => failure

def value (constant : Bool) : (levels : Nat) → Reader Value
  | 0 => valueOver constant failure
  | levels + 1 => valueOver constant (value constant levels)

/-- A type reference whose list item is read by `item`. -/
def typeOver (item : Reader TypeRef) : Reader TypeRef := do
  match ← advance with
  | .name core => return .named core (← accept (.mark '!'))
  | .mark '[' =>
      let inside ← item
      mark ']'
      return .list inside (← accept (.mark '!'))
  | _ => failure

/-- A type reference that may nest `levels` deep. -/
def typeRef : (levels : Nat) → Reader TypeRef
  | 0 => typeOver failure
  | levels + 1 => typeOver (typeRef levels)

/-- Arguments between parentheses. -/
def arguments (constant : Bool) (levels : Nat) : Reader (List Argument) := do
  mark '('
  let entries ← someParts opensName (entry (value constant levels))
  mark ')'
  return entries.filterMap fun written => written.map fun (name, value) => ⟨name, value⟩

/-- Arguments between parentheses, or none at all. -/
def optionalArguments (constant : Bool) (levels : Nat) : Reader (List Argument) := do
  return (← whenSees (.mark '(') (arguments constant levels)).getD []

def directive (constant : Bool) (levels : Nat) : Reader Directive := do
  mark '@'
  let called ← name
  return ⟨called, ← optionalArguments constant levels⟩

def directives (constant : Bool) (levels : Nat) : Reader (List Directive) :=
  parts (· == .mark '@') (directive constant levels)

/-- The default after an equals sign, if there is one. -/
def optionalDefault (levels : Nat) : Reader (Option Value) :=
  whenSees (.mark '=') (mark '=' *> value true levels)

end QueryPaging.Reader
