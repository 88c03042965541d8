import QueryPaging.Graphql.Name
import QueryPaging.Text.Decimal

/-!
# Values

The values a document may hold. Numbers keep the text they were written with, so two numbers are
equal only when they are spelled alike.
-/

namespace QueryPaging

/-- A value as written in a document. -/
inductive Value where
  | null
  | boolean (truth : Bool)
  | int (digits : String)
  | float (digits : String)
  | string (text : String)
  | enum (name : Name)
  | reference (name : Name)
  | list (items : List Value)
  | object (entries : List (Name × Value))

namespace Value

mutual

/-- Structural equality as a test. -/
def same : Value → Value → Bool
  | .null, .null => true
  | .boolean left, .boolean right => left == right
  | .int left, .int right => left == right
  | .float left, .float right => left == right
  | .string left, .string right => left == right
  | .enum left, .enum right => left == right
  | .reference left, .reference right => left == right
  | .list left, .list right => sameItems left right
  | .object left, .object right => sameEntries left right
  | _, _ => false

def sameItems : List Value → List Value → Bool
  | [], [] => true
  | left :: lefts, right :: rights => same left right && sameItems lefts rights
  | _, _ => false

def sameEntries : List (Name × Value) → List (Name × Value) → Bool
  | [], [] => true
  | (leftName, left) :: lefts, (rightName, right) :: rights =>
      leftName == rightName && same left right && sameEntries lefts rights
  | _, _ => false

end

mutual

theorem same_iff (left right : Value) :
    same left right = true ↔ left = right := by
  cases left <;> cases right <;> simp [same, sameItems_iff, sameEntries_iff]

theorem sameItems_iff (lefts rights : List Value) :
    sameItems lefts rights = true ↔ lefts = rights := by
  cases lefts <;> cases rights <;> simp [sameItems, same_iff, sameItems_iff]

theorem sameEntries_iff (lefts rights : List (Name × Value)) :
    sameEntries lefts rights = true ↔ lefts = rights := by
  match lefts, rights with
  | [], [] => simp [sameEntries]
  | [], _ :: _ => simp [sameEntries]
  | _ :: _, [] => simp [sameEntries]
  | (leftName, left) :: lefts, (rightName, right) :: rights =>
      simp [sameEntries, same_iff, sameEntries_iff, and_assoc]

end

instance : DecidableEq Value := fun left right =>
  decidable_of_iff (same left right = true) (same_iff left right)

/-- The value as a 32-bit integer, if it is an integer literal that fits. -/
def int32? : Value → Option Int32
  | .int digits => Decimal.word32? (Decimal.integer digits.toList)
  | _ => none

/-- The variable a value refers to, if it is nothing but a variable. -/
def reference? : Value → Option Name
  | .reference name => some name
  | _ => none

mutual

/-- The variables occurring in a value, in the order they are written. -/
def references : Value → List Name
  | .reference name => [name]
  | .list items => itemReferences items
  | .object entries => entryReferences entries
  | _ => []

def itemReferences : List Value → List Name
  | [] => []
  | item :: items => item.references ++ itemReferences items

def entryReferences : List (Name × Value) → List Name
  | [] => []
  | (_, value) :: entries => value.references ++ entryReferences entries

end

end Value

end QueryPaging
