import QueryPaging.Config.Basic
import QueryPaging.Fault
import QueryPaging.Schema.Basic

/-!
# Identities

How an object is found again from the query root: not at all when it is the query root itself, by a
configured field that takes its keys, or by `node(id:)`. A configured field comes before `node`, so
a type can opt out of it.
-/

namespace QueryPaging

/-- One argument of a configured field. -/
structure IdentityArgument where
  /-- The field of the object whose value is passed. -/
  key : Name
  argument : Name
  type : TypeRef
deriving DecidableEq

/-- How objects of a type are found again. -/
inductive Identity where
  | root (type : Name)
  | node
  | resolver (type queryField : Name) (arguments : List IdentityArgument)
deriving DecidableEq

namespace Identity

def nodeInterface : String := "Node"
def idField : Name := ⟨"id", by decide⟩
def idType : TypeRef := .named Name.idType true

/-- The type that refetch specs name as their target. -/
def targetType : Identity → String
  | .root type => type
  | .node => nodeInterface
  | .resolver type _ _ => type

/-- The fields selected where an object is looked up. -/
def keyFields : Identity → List Name
  | .root _ => []
  | .node => [idField]
  | .resolver _ _ arguments => arguments.map (·.key)

/-- The argument that passes one key to a configured field. -/
def argumentFor (type : String) (root : Name) (resolver : ResolverConfig)
    (lookup : FieldDefinition) (key : String) : Except Fault IdentityArgument := do
  let argument := resolver.argumentFor key
  match lookup.argument? argument with
  | none => throw (.unresolvableIdentity type (.missingArgument root lookup.name argument))
  | some declared => return ⟨← Name.require key, declared.name, declared.type⟩

def resolveBy (schema : Schema) (config : IdentityConfig) (type : String) (root : Name)
    (resolver : ResolverConfig) : Except Fault Identity := do
  let queryField ← Name.require resolver.queryField
  match schema.field? root queryField with
  | none => throw (.unresolvableIdentity type (.missingLookup root queryField))
  | some lookup =>
      let arguments ← (config.keysFor type).mapM (argumentFor type root resolver lookup)
      return .resolver (← Name.require type) queryField arguments

/-- How objects of a type are found again. -/
def resolve (schema : Schema) (config : IdentityConfig) (type : String) : Except Fault Identity :=
  match schema.queryRoot? with
  | none => .error (.unresolvableIdentity type .noQueryRoot)
  | some queryRoot =>
      if queryRoot.text = type then
        .ok (.root queryRoot)
      else
        match (config.type? type).bind (·.resolver) with
        | some configured => resolveBy schema config type queryRoot configured
        | none =>
            if schema.implements type nodeInterface && schema.hasField queryRoot Name.node then
              .ok .node
            else
              .error (.unresolvableIdentity type .notIdentifiable)

end Identity

end QueryPaging
