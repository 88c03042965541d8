import QueryPaging.Graphql.Name

/-!
# Type references

A type reference names a type or wraps another reference in a list; at each level it may exclude
null.
-/

namespace QueryPaging

/-- A reference to a type, with `required` set where null is excluded. -/
inductive TypeRef where
  | named (name : Name) (required : Bool)
  | list (item : TypeRef) (required : Bool)
deriving DecidableEq

namespace TypeRef

def inner : TypeRef → Name
  | .named name _ => name
  | .list item _ => item.inner

def isRequired : TypeRef → Bool
  | .named _ required => required
  | .list _ required => required

def isList : TypeRef → Bool
  | .named _ _ => false
  | .list _ _ => true

/-- The same reference with null allowed at the outermost level. -/
def nullable : TypeRef → TypeRef
  | .named name _ => .named name false
  | .list item _ => .list item false

/-- The mark written after a level that excludes null. -/
def mark (required : Bool) : String :=
  if required then "!" else ""

/-- The reference as it is written in a document. -/
def render : TypeRef → String
  | .named name required => name.text ++ mark required
  | .list item required => "[" ++ item.render ++ "]" ++ mark required

@[simp]
theorem inner_nullable (type : TypeRef) :
    type.nullable.inner = type.inner := by
  cases type <;> rfl

end TypeRef

end QueryPaging
