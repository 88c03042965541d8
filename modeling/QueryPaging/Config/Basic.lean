import QueryPaging.Table

/-!
# Configuration

What a project says about its schema, its documents and the types it pages through.
-/

namespace QueryPaging

/-- How a single object of a type is fetched by its keys. -/
structure ResolverConfig where
  /-- The field of the query root that answers the object. -/
  queryField : String
  /-- The argument each key is passed as, where it is not called like the key. -/
  arguments : Table String String
deriving DecidableEq

def ResolverConfig.argumentFor (resolver : ResolverConfig) (key : String) : String :=
  (resolver.arguments.get? key).getD key

/-- How objects of a type are told apart and fetched. -/
structure TypeConfig where
  keys : List String
  resolver : Option ResolverConfig
deriving DecidableEq

/-- How objects are told apart and fetched, type by type. -/
structure IdentityConfig where
  /-- The keys of the types that have none of their own. -/
  defaultKeys : List String
  types : Table String TypeConfig
deriving DecidableEq

namespace IdentityConfig

/-- Every object is told apart by its `id`. -/
def standard : IdentityConfig :=
  ⟨["id"], []⟩

def type? (config : IdentityConfig) (type : String) : Option TypeConfig :=
  config.types.get? type

/-- The keys of a type: its own, or else the default ones. -/
def keysFor (config : IdentityConfig) (type : String) : List String :=
  match config.type? type with
  | some ⟨key :: keys, _⟩ => key :: keys
  | _ => config.defaultKeys

end IdentityConfig

/-- One text, or a list of texts. -/
inductive OneOrMany where
  | one (text : String)
  | many (texts : List String)
deriving DecidableEq

def OneOrMany.toList : OneOrMany → List String
  | .one text => [text]
  | .many texts => texts

/-- The configuration of a project. -/
structure Config where
  /-- The paths of the schema files. -/
  schema : OneOrMany
  /-- The patterns of the document files. -/
  documents : Option OneOrMany
  identity : IdentityConfig
deriving DecidableEq

end QueryPaging
