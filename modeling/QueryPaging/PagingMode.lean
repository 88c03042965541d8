import QueryPaging.PaginatedField
import QueryPaging.Schema.Connection

/-!
# Paging modes

How a field pages: by cursors, forward, backward or both ways, or by offsets. The mode decides which
arguments the field has to pass.

- `PagingMode.detect` finds the mode of a field. What the field passes counts before what the schema
  declares, and what the schema declares before what the field answers.
-/

namespace QueryPaging

inductive PagingArgument where
  | first
  | after
  | last
  | before
  | limit
  | offset
deriving DecidableEq

namespace PagingArgument

def name : PagingArgument → Name
  | .first => ⟨"first", by decide⟩
  | .after => ⟨"after", by decide⟩
  | .last => ⟨"last", by decide⟩
  | .before => ⟨"before", by decide⟩
  | .limit => ⟨"limit", by decide⟩
  | .offset => ⟨"offset", by decide⟩

def all : List PagingArgument :=
  [.first, .after, .last, .before, .limit, .offset]

def forward : List PagingArgument := [.first, .after]
def backward : List PagingArgument := [.last, .before]
def offsets : List PagingArgument := [.limit, .offset]

/-- The type the argument has where the schema does not declare it. -/
def fallbackType : PagingArgument → TypeRef
  | .after => .named Name.stringType false
  | .before => .named Name.stringType false
  | _ => .named Name.intType false

/-- Whether a name is the name of one of some arguments. -/
def areNamed (group : List PagingArgument) (name : Name) : Bool :=
  group.any (·.name == name)

end PagingArgument

inductive PagingMode where
  | cursorForward
  | cursorBackward
  | cursorBoth
  | offset
deriving DecidableEq

namespace PagingMode

def method : PagingMode → PagingMethod
  | .offset => .offset
  | _ => .cursor

def direction : PagingMode → PagingDirection
  | .cursorForward => .forward
  | .offset => .forward
  | .cursorBackward => .backward
  | .cursorBoth => .both

/-- The arguments the field has to pass, in canonical order. -/
def arguments : PagingMode → List PagingArgument
  | .cursorForward => [.first, .after]
  | .cursorBackward => [.last, .before]
  | .cursorBoth => [.first, .after, .last, .before]
  | .offset => [.limit, .offset]

def anchors : PagingMode → List PagingArgument
  | .cursorForward => [.first]
  | .cursorBackward => [.last]
  | .cursorBoth => [.first, .last]
  | .offset => [.limit]

def starts : PagingMode → List PagingArgument
  | .cursorForward => [.after]
  | .cursorBackward => [.before]
  | .cursorBoth => [.after, .before]
  | .offset => [.offset]

/-- The argument that receives the page size given with the mark. -/
def anchor : PagingMode → PagingArgument
  | .cursorForward => .first
  | .cursorBoth => .first
  | .cursorBackward => .last
  | .offset => .limit

def isCursor : PagingMode → Bool
  | .offset => false
  | _ => true

/-- The cursor mode that goes forward and backward as told. -/
def cursor (forward backward : Bool) : PagingMode :=
  if backward then
    if forward then .cursorBoth else .cursorBackward
  else
    .cursorForward

/-! ## Detection -/

def hasAny (names : List Name) (group : List PagingArgument) : Bool :=
  names.any (PagingArgument.areNamed group)

/-- The mode of a field by what it passes, by what the schema declares and by what it answers. -/
def classify (field : PaginatedField) (supplied declared : List Name) (shape : ConnectionShape) :
    Except Fault PagingMode :=
  let suppliedForward := hasAny supplied PagingArgument.forward
  let suppliedBackward := hasAny supplied PagingArgument.backward
  let suppliedOffset := hasAny supplied PagingArgument.offsets
  let declaredForward := hasAny declared PagingArgument.forward
  let declaredBackward := hasAny declared PagingArgument.backward
  if (suppliedForward || suppliedBackward) && suppliedOffset then
    .error (.ambiguousMode field.path
      (supplied.filter
        (PagingArgument.areNamed (PagingArgument.forward ++ PagingArgument.backward)))
      (supplied.filter (PagingArgument.areNamed PagingArgument.offsets)))
  else if suppliedOffset then
    .ok .offset
  else if suppliedForward || suppliedBackward then
    .ok (cursor (suppliedForward || declaredForward) (suppliedBackward || declaredBackward))
  else if declaredForward || declaredBackward then
    .ok (cursor declaredForward declaredBackward)
  else if hasAny declared PagingArgument.offsets then
    .ok .offset
  else if shape.isBidirectional then
    .ok .cursorBoth
  else
    .error (.unsupportedShape field.renderPath .notPageable)

/-- The mode, unless the type of the field cannot be paged through in that mode. -/
def fitting (field : PaginatedField) (type : TypeRef) (shape : ConnectionShape)
    (mode : PagingMode) : Except Fault PagingMode :=
  if mode.isCursor && !shape.isConnection then
    .error (.unsupportedShape field.renderPath (.notConnection type.inner))
  else if mode == .offset && !type.isList then
    .error (.unsupportedShape field.renderPath (.notList type))
  else
    .ok mode

def detect (schema : Schema) (field : PaginatedField) : Except Fault PagingMode :=
  match schema.field? field.parentType field.name with
  | none =>
      .error (.unsupportedShape field.renderPath
        (.undeclaredField field.parentType field.name))
  | some definition => do
      let shape := ConnectionShape.ofType schema definition.type.inner
      let mode ← classify field (field.arguments.map (·.name))
        (definition.arguments.map (·.name)) shape
      fitting field definition.type shape mode

end PagingMode

end QueryPaging
