import QueryPaging.PagingMode
import QueryPaging.Table

/-!
# Promotion of arguments

After promotion each argument that pages through the field is a variable, so the next page is
fetched by changing variables alone.

- A literal becomes the default of a variable that is called like the argument.
- A variable that the author passes stays.
- An argument that the author does not pass gets a variable of its own.
-/

namespace QueryPaging

/-- What promotion makes of a field's arguments. -/
structure Promotion where
  /-- The variables of the document after promotion. -/
  variableSet : VariableSet
  /-- The arguments of the field after promotion. -/
  arguments : List Argument
  /-- The variable each paging argument is bound to. -/
  bindings : Table Name Name

namespace Promotion

/-- The type a variable for an argument needs, which may always be null. -/
def typeFor (definition : Option FieldDefinition) (argument : PagingArgument) : TypeRef :=
  match definition.bind (·.argument? argument.name) with
  | some declared => declared.type.nullable
  | none => argument.fallbackType

/-- The default of a variable for an argument that is not passed. -/
def fallback (field : PaginatedField) (mode : PagingMode) (argument : PagingArgument) :
    Option Value :=
  if argument = mode.anchor then field.pageSize else none

/-- The request for the variable that an argument is bound to. -/
def requestFor (definition : Option FieldDefinition) (field : PaginatedField) (mode : PagingMode)
    (argument : PagingArgument) : VariableRequest :=
  let type := typeFor definition argument
  match field.argument? argument.name with
  | some (.reference passed) => ⟨passed, type, argument.name, .promoted, .reference⟩
  | some value => ⟨argument.name, type, argument.name, .promoted, .literal value⟩
  | none =>
      ⟨argument.name, type, argument.name, .promoted, .absent (fallback field mode argument)⟩

/-- The requests for all arguments of the mode, in canonical order. -/
def requests (schema : Schema) (field : PaginatedField) (mode : PagingMode) :
    List VariableRequest :=
  mode.arguments.map (requestFor (schema.field? field.parentType field.name) field mode)

/-- An argument as it was written, unless it passes a literal for a bound argument. -/
def promoteArgument (bindings : Table Name Name) (argument : Argument) : Argument :=
  match argument.value, bindings.get? argument.name with
  | .reference _, _ => argument
  | _, some bound => ⟨argument.name, .reference bound⟩
  | _, none => argument

/-- The arguments of the field after promotion: those written, and then those missing. -/
def promoteArguments (bindings : Table Name Name) (written : List Argument) : List Argument :=
  let missing := bindings.filter fun entry => !written.any (·.name == entry.1)
  written.map (promoteArgument bindings)
    ++ missing.map fun entry => ⟨entry.1, .reference entry.2⟩

/-- Promote the arguments of a field. The variables already declared stay first and in order. -/
def promote (schema : Schema) (field : PaginatedField) (mode : PagingMode)
    (existing : VariableSet) : Except Fault Promotion := do
  let requests := requests schema field mode
  let bindings := requests.map fun request => (request.argument, request.name)
  let variableSet ← existing.merge requests
  return ⟨variableSet, promoteArguments bindings field.arguments, bindings⟩

end Promotion

end QueryPaging
