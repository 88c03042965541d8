import QueryPaging.Graphql.Syntax

/-!
# Type system definitions

What a schema text declares, as far as paging depends on it. Descriptions and directives on
declarations carry no meaning here and are not kept.
-/

namespace QueryPaging

/-- An argument of a field, or a field of an input object. -/
structure InputValue where
  name : Name
  type : TypeRef
  default : Option Value

/-- Whether a value must be supplied: null is excluded and there is no default. -/
def InputValue.isRequired (input : InputValue) : Bool :=
  input.type.isRequired && input.default.isNone

/-- A field of an object or interface type. -/
structure FieldDefinition where
  name : Name
  arguments : List InputValue
  type : TypeRef

def FieldDefinition.argument? (field : FieldDefinition) (name : String) : Option InputValue :=
  field.arguments.find? (·.name.text == name)

/-- The six kinds of type, with what each declares. -/
inductive TypeBody where
  | scalar
  | object (interfaces : List Name) (fields : List FieldDefinition)
  | interface (interfaces : List Name) (fields : List FieldDefinition)
  | union (members : List Name)
  | enum (values : List Name)
  | input (fields : List InputValue)

structure TypeDefinition where
  name : Name
  body : TypeBody

/-- The type an operation kind starts from. -/
structure RootOperation where
  kind : OperationKind
  type : Name

/-- A directive that may be applied to parts of a document or a schema. -/
structure DirectiveDefinition where
  name : Name
  arguments : List InputValue

/-- A definition of a schema text. -/
inductive SystemDefinition where
  | schema (roots : List RootOperation)
  | type (definition : TypeDefinition)
  | directive (definition : DirectiveDefinition)
  | schemaExtension (roots : List RootOperation)
  | typeExtension (definition : TypeDefinition)

inductive SourceDefinition where
  | executable (definition : Definition)
  | system (definition : SystemDefinition)

/-- The definition, if it can be executed or spread. -/
def SourceDefinition.executable? : SourceDefinition → Option Definition
  | .executable definition => some definition
  | .system _ => none

end QueryPaging
