import QueryPaging.Schema.Basic

/-!
# Valid schemas

A schema can be built although it mentions types that nothing defines, or although queries have
nowhere to start. Neither is allowed where a schema has to be valid.
-/

namespace QueryPaging

/-! ## Mentioned types -/

def InputValue.mentioned (input : InputValue) : Name :=
  input.type.inner

/-- The types mentioned by a field: its own and those of its arguments. -/
def FieldDefinition.mentioned (field : FieldDefinition) : List Name :=
  field.type.inner :: field.arguments.map InputValue.mentioned

def TypeBody.mentioned : TypeBody → List Name
  | .scalar => []
  | .object interfaces fields => interfaces ++ fields.flatMap FieldDefinition.mentioned
  | .interface interfaces fields => interfaces ++ fields.flatMap FieldDefinition.mentioned
  | .union members => members
  | .enum _ => []
  | .input fields => fields.map InputValue.mentioned

/-! ## Flaws -/

/-- What is wrong with a schema that could be built. -/
inductive SchemaFlaw where
  | undefinedType (name : Name)
  | missingQueryRoot
deriving DecidableEq

namespace SchemaFlaw

def message : SchemaFlaw → String
  | .undefinedType name => "the type `" ++ name.text ++ "` is not defined"
  | .missingQueryRoot => "there is no type that queries start from"

end SchemaFlaw

namespace Schema

/-- The types a schema mentions: those its types and directives use, and its roots. -/
def mentioned (schema : Schema) : List Name :=
  schema.types.flatMap (·.body.mentioned)
    ++ schema.directives.flatMap (·.arguments.map InputValue.mentioned)
    ++ schema.roots.map (·.type)

/-- The mentioned types that nothing defines. -/
def undefinedTypes (schema : Schema) : List Name :=
  schema.mentioned.filter fun name => (schema.type? name.text).isNone

def flaws (schema : Schema) : List SchemaFlaw :=
  schema.undefinedTypes.map .undefinedType
    ++ (if schema.queryRoot?.isSome then [] else [.missingQueryRoot])

end Schema

end QueryPaging
