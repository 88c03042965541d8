import QueryPaging.Graphql.TypeRef
import QueryPaging.Graphql.Value
import QueryPaging.Text.Position

/-!
# Executable documents

Operations and fragments as they are written. Fields and definitions remember where they stood in
their source; whatever the pass adds stands nowhere.
-/

namespace QueryPaging

/-- A named value passed to a field or a directive. -/
structure Argument where
  name : Name
  value : Value
deriving DecidableEq

/-- A directive applied to some part of a document. -/
structure Directive where
  name : Name
  arguments : List Argument
deriving DecidableEq

/-- A field whose selections are drawn from `Child`. -/
structure FieldOf (Child : Type) where
  aliasName : Option Name
  name : Name
  arguments : List Argument
  directives : List Directive
  selections : List Child
  span : Option Span

/-- An inline fragment whose selections are drawn from `Child`. -/
structure InlineOf (Child : Type) where
  condition : Option Name
  directives : List Directive
  selections : List Child

/-- A reference to a named fragment. -/
structure Spread where
  fragment : Name
  directives : List Directive
deriving DecidableEq

/-- One entry of a selection set. -/
inductive Selection where
  | field (field : FieldOf Selection)
  | spread (spread : Spread)
  | inline (inline : InlineOf Selection)

abbrev Field := FieldOf Selection
abbrev InlineFragment := InlineOf Selection

namespace FieldOf

variable {Child : Type}

def plain (name : Name) (selections : List Child) : FieldOf Child :=
  ⟨none, name, [], [], selections, none⟩

/-- The key a field is answered under: its alias, or else its name. -/
def responseKey (field : FieldOf Child) : Name :=
  field.aliasName.getD field.name

def argument? (field : FieldOf Child) (name : String) : Option Value :=
  (field.arguments.find? (·.name.text == name)).map (·.value)

end FieldOf

def findDirective? (name : String) (directives : List Directive) : Option Directive :=
  directives.find? (·.name.text == name)

inductive OperationKind where
  | query
  | mutation
  | subscription
deriving DecidableEq

/-- A variable an operation declares. -/
structure VariableDefinition where
  name : Name
  type : TypeRef
  default : Option Value
  directives : List Directive
deriving DecidableEq

structure Operation where
  kind : OperationKind
  name : Option Name
  declarations : List VariableDefinition
  directives : List Directive
  selections : List Selection
  span : Option Span

structure Fragment where
  name : Name
  condition : Name
  directives : List Directive
  selections : List Selection
  span : Option Span

/-- A definition that can be executed or spread. -/
inductive Definition where
  | operation (operation : Operation)
  | fragment (fragment : Fragment)

namespace Definition

def selections : Definition → List Selection
  | .operation body => body.selections
  | .fragment body => body.selections

def directives : Definition → List Directive
  | .operation body => body.directives
  | .fragment body => body.directives

def span : Definition → Option Span
  | .operation body => body.span
  | .fragment body => body.span

/-- The name of the definition, absent for an anonymous operation. -/
def name? : Definition → Option Name
  | .operation body => body.name
  | .fragment body => some body.name

def fragment? : Definition → Option Fragment
  | .operation _ => none
  | .fragment body => some body

def operation? : Definition → Option Operation
  | .operation body => some body
  | .fragment _ => none

def withSelections (selections : List Selection) : Definition → Definition
  | .operation body => .operation { body with selections }
  | .fragment body => .fragment { body with selections }

end Definition

end QueryPaging
