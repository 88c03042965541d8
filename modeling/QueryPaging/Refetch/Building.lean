import QueryPaging.Identity
import QueryPaging.Promotion

/-!
# Building refetch specs

The spec of a field is read off its mode, the defaults of the variables its arguments are bound to
and the way its parent object is found again.
-/

namespace QueryPaging

/-- What a refetch spec is built from. -/
structure RefetchInputs where
  path : List Name
  mode : PagingMode
  kind : DocumentKind
  /-- The type a fragment is written for. -/
  condition : Option String
  queryRoot : String
  identity : Option Identity
  variableSet : VariableSet
  /-- The variable each paging argument is bound to. -/
  bindings : Table Name Name

namespace RefetchInputs

/-- The default of the variable an argument is bound to. -/
def default? (inputs : RefetchInputs) (argument : PagingArgument) : Option Value :=
  (inputs.bindings.get? argument.name).bind inputs.variableSet.default?

def firstDefault? (inputs : RefetchInputs) (arguments : List PagingArgument) : Option Value :=
  arguments.findSome? inputs.default?

/-- Whether the selections are made on the query root. -/
def isOnRoot (inputs : RefetchInputs) : Bool :=
  inputs.condition.all (· == inputs.queryRoot)

end RefetchInputs

/-- Where a page starts by the default of a variable. -/
def PageStart.ofValue? : Value → Option PageStart
  | .string text => some (.cursor text)
  | .int digits => (Value.int digits).int32?.map .offset
  | _ => none

def RefetchSpec.build (inputs : RefetchInputs) : RefetchSpec :=
  { path := inputs.path.map Name.text
    method := inputs.mode.method
    pageSize := (inputs.firstDefault? inputs.mode.anchors).bind Value.int32?
    embedded := inputs.kind.isFragment && !inputs.isOnRoot
    targetType :=
      match inputs.identity with
      | some identity => if inputs.isOnRoot then inputs.queryRoot else identity.targetType
      | none => inputs.queryRoot
    paginated := true
    direction := inputs.mode.direction
    start := (inputs.firstDefault? inputs.mode.starts).bind PageStart.ofValue? }

end QueryPaging
