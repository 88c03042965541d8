import QueryPaging.Graphql.FieldPath
import QueryPaging.Refetch
import QueryPaging.VariableSet

/-!
# Documents

A document is a single operation or fragment on its way through the pass, with what the pass
attaches to it. Its first definition is the primary one. Documents written by authors hold nothing
else; a generated query also holds the fragments it spreads.
-/

namespace QueryPaging

/-- What the primary definition of a document is. -/
inductive DocumentKind where
  | operation (kind : OperationKind)
  | fragment
deriving DecidableEq

namespace DocumentKind

def isFragment : DocumentKind → Bool
  | .operation _ => false
  | .fragment => true

def render : DocumentKind → String
  | .operation kind => kind.render
  | .fragment => "fragment"

end DocumentKind

/-- Where a generated query comes from. -/
structure Provenance where
  /-- The fragment it was generated for. -/
  fragment : String
  /-- The renamed copy of that fragment which the query spreads. -/
  wrapper : String
  /-- The hash of the query's text. -/
  hash : String
deriving DecidableEq

/-- An operation or fragment and what the pass attaches to it. -/
structure Document where
  name : String
  /-- The source text it was written in. -/
  source : String
  definitions : List Definition
  refetch : Option RefetchSpec
  generated : Option Provenance

namespace Document

def primary? (document : Document) : Option Definition :=
  document.definitions.head?

def kind? (document : Document) : Option DocumentKind :=
  document.primary?.map fun
    | .operation body => .operation body.kind
    | .fragment _ => .fragment

def operation? (document : Document) : Option Operation :=
  document.primary?.bind Definition.operation?

def fragment? (document : Document) : Option Fragment :=
  document.primary?.bind Definition.fragment?

def isGenerated (document : Document) : Bool :=
  document.generated.isSome

/-- Where the primary definition stands in its source text. -/
def span? (document : Document) : Option Span :=
  document.primary?.bind Definition.span

def selections? (document : Document) : Option (List Selection) :=
  document.primary?.map Definition.selections

/-! ## Variables -/

/-- The variables the primary definition declares. -/
def variableSet (document : Document) : Except Fault VariableSet :=
  match document.primary? with
  | some (.operation body) => .ok (VariableSet.ofOperation body)
  | some (.fragment body) => VariableSet.ofFragment body
  | none => .ok VariableSet.empty

/-- The directives with the first `@arguments` replaced, or with one added to the end where there
was none and there is something to declare. -/
def declareParameters (set : VariableSet) : List Directive → List Directive
  | [] => if set.isEmpty then [] else [PassDirective.encodeArguments set.parameters]
  | first :: others =>
      if first.name = PassDirective.argumentsName then
        PassDirective.encodeArguments set.parameters :: others
      else
        first :: declareParameters set others

/-- The definition declaring the variables of a set. An operation keeps its own declarations and
gains those it lacks at the end. -/
def declareIn (set : VariableSet) : Definition → Definition
  | .operation body =>
      let missing := set.bindings.filter fun binding =>
        !body.declarations.any (·.name == binding.name)
      .operation
        { body with declarations := body.declarations ++ missing.map VariableSet.toDefinition }
  | .fragment body =>
      .fragment { body with directives := declareParameters set body.directives }

def mapPrimary (change : Definition → Definition) (document : Document) : Document :=
  match document.definitions with
  | [] => document
  | primary :: others => { document with definitions := change primary :: others }

def declare (set : VariableSet) (document : Document) : Document :=
  document.mapPrimary (declareIn set)

/-! ## Fields -/

def field? (document : Document) (indices : List Nat) : Option Field := do
  fieldAt? (← document.selections?) indices

def editField? (edit : Field → Field) (indices : List Nat) (document : Document) :
    Option Document := do
  let selections ← editFieldAt? edit (← document.selections?) indices
  return document.mapPrimary (·.withSelections selections)

end Document

end QueryPaging
