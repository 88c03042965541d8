import QueryPaging.Schema.BuiltIn

/-!
# Building schemas

A schema is built from the definitions of its texts, in order. What an extension adds goes to the
end of the type it extends, wherever the extension stands. Building fails when something is
defined twice, when an extension has nothing to extend, and when a definition can be executed.
An extension of the wrong kind adds nothing if it stands before the type, and is a failure if it
stands behind it.
-/

namespace QueryPaging

/-- Whether no name occurs twice. -/
def distinctNames (names : List Name) : Bool :=
  match names with
  | [] => true
  | name :: others => !others.contains name && distinctNames others

namespace TypeBody

/-- The type with what an extension of the same kind adds. -/
def extend? : TypeBody → TypeBody → Option TypeBody
  | .scalar, .scalar => some .scalar
  | .object interfaces fields, .object more others =>
      some (.object (interfaces ++ more) (fields ++ others))
  | .interface interfaces fields, .interface more others =>
      some (.interface (interfaces ++ more) (fields ++ others))
  | .union members, .union others => some (.union (members ++ others))
  | .enum values, .enum others => some (.enum (values ++ others))
  | .input fields, .input others => some (.input (fields ++ others))
  | _, _ => none

/-- Whether a type declares each of its parts once. -/
def isDistinct : TypeBody → Bool
  | .scalar => true
  | .object interfaces fields => distinctNames interfaces && distinctNames (fields.map (·.name))
  | .interface interfaces fields =>
      distinctNames interfaces && distinctNames (fields.map (·.name))
  | .union members => distinctNames members
  | .enum values => distinctNames values
  | .input fields => distinctNames (fields.map (·.name))

end TypeBody

/-- The types of a schema that is being built. -/
structure TypeGathering where
  /-- The types defined so far. -/
  types : List TypeDefinition
  /-- The extensions whose types are not defined yet. -/
  waiting : List TypeDefinition

namespace TypeGathering

/-- Before any definition there are the built-in types. -/
def initial : TypeGathering :=
  ⟨Schema.BuiltIn.types, []⟩

/-- Define a type that is not defined yet. Extensions of its kind that waited for it apply. -/
def define? (gathering : TypeGathering) (type : TypeDefinition) : Option TypeGathering :=
  if gathering.types.any (·.name = type.name) then
    none
  else
    let (own, others) := gathering.waiting.partition (·.name = type.name)
    let body := own.foldl (fun body extension => (body.extend? extension.body).getD body) type.body
    some ⟨gathering.types ++ [⟨type.name, body⟩], others⟩

/-- Extend a type of the same kind, or let the extension wait if its type is not defined yet. -/
def extend? (gathering : TypeGathering) (extension : TypeDefinition) : Option TypeGathering :=
  if gathering.types.any (·.name = extension.name) then do
    let types ← gathering.types.mapM fun type =>
      if type.name = extension.name then do
        return ⟨type.name, ← type.body.extend? extension.body⟩
      else
        some type
    return { gathering with types }
  else
    some { gathering with waiting := gathering.waiting ++ [extension] }

/-- Take account of a definition. -/
def add? (gathering : TypeGathering) : SystemDefinition → Option TypeGathering
  | .type definition => gathering.define? definition
  | .typeExtension extension => gathering.extend? extension
  | _ => some gathering

/-- The types when there are no more definitions. No extension may wait any longer. -/
def finish? (gathering : TypeGathering) : Option (List TypeDefinition) :=
  if gathering.waiting.isEmpty then some gathering.types else none

end TypeGathering

namespace Schema

/-- The name a root type has when the schema does not say otherwise. -/
def defaultRootName : OperationKind → String
  | .query => "Query"
  | .mutation => "Mutation"
  | .subscription => "Subscription"

/-- The object types that carry the default name of a root type. -/
def implicitRoots (types : List TypeDefinition) : List RootOperation :=
  [OperationKind.query, .mutation, .subscription].filterMap fun kind =>
    (types.find? fun type =>
      type.name.text == defaultRootName kind && type.body.isObject).map
        fun type => ⟨kind, type.name⟩

/-- Whether no operation kind starts from two types. -/
def distinctKinds (roots : List RootOperation) : Bool :=
  match roots with
  | [] => true
  | root :: others => !others.any (·.kind == root.kind) && distinctKinds others

/-- The roots of a schema: those it declares, or else the implicit ones, with those added by
extensions. There must be something to extend. -/
def roots? (types : List TypeDefinition) (declared extensions : List (List RootOperation)) :
    Option (List RootOperation) := do
  let base ← match declared with
    | [] => pure (implicitRoots types)
    | [roots] => pure roots
    | _ => none
  if declared.isEmpty && base.isEmpty && !extensions.isEmpty then none
  let roots := base ++ extensions.flatten
  if distinctKinds roots then some roots else none

def ofDefinitions? (definitions : List SourceDefinition) : Option Schema := do
  let system ← definitions.mapM fun
    | .system definition => some definition
    | .executable _ => none
  let types ← (← system.foldlM TypeGathering.add? .initial).finish?
  if !types.all (·.body.isDistinct) then none
  let directives := system.filterMap fun
    | .directive definition => some definition
    | _ => none
  if !distinctNames (directives.map (·.name)) then none
  let declared := system.filterMap fun
    | .schema roots => some roots
    | _ => none
  let extensions := system.filterMap fun
    | .schemaExtension roots => some roots
    | _ => none
  let roots ← roots? types declared extensions
  return ⟨types, roots, directives⟩

end Schema

end QueryPaging
