import QueryPaging.Config.Basic
import QueryPaging.Graphql.Name
import QueryPaging.Text.Blank

/-!
# Valid configurations

A configuration that can be read may still make no sense. `Config.flaws` lists what is wrong with
it, in the order in which its parts are looked through; a configuration without flaws is valid.
-/

namespace QueryPaging

/-- What can be wrong with a configuration. -/
inductive ConfigFlaw where
  | emptySchema
  | emptyDocuments
  | defaultKey (key : String)
  | typeName (type : String)
  | typeKey (type key : String)
  | queryField (type field : String)
  | foreignKey (type key argument : String)
  | argumentName (type key argument : String)
deriving DecidableEq

namespace ConfigFlaw

/-- A piece of a message that quotes something from a configuration. -/
def mark (text : String) : String :=
  "'" ++ text ++ "'"

def message : ConfigFlaw → String
  | .emptySchema => "schema must name at least one non-empty path"
  | .emptyDocuments => "documents must contain at least one non-empty pattern"
  | .defaultKey key => "defaultKeys entry " ++ mark key ++ " is not a field name"
  | .typeName type => mark type ++ " is not a type name"
  | .typeKey type key =>
      "type " ++ mark type ++ " has key " ++ mark key ++ " which is not a field name"
  | .queryField type field =>
      "type " ++ mark type ++ " resolves through " ++ mark field ++ " which is not a field name"
  | .foreignKey type key argument =>
      "type " ++ mark type ++ " maps argument " ++ mark argument ++ " from " ++ mark key
        ++ ", which is not one of its keys"
  | .argumentName type key argument =>
      "type " ++ mark type ++ " maps " ++ mark key ++ " to " ++ mark argument
        ++ ", which is not an argument name"

end ConfigFlaw

/-- Whether there is a text, and none that is blank. -/
def OneOrMany.isFilled (texts : OneOrMany) : Bool :=
  !texts.toList.isEmpty && texts.toList.all (!Blank.isBlankText ·)

def notNames (texts : List String) : List String :=
  texts.filter fun text => (Name.ofText? text).isNone

namespace Config

def flawUnless (holds : Bool) (flaw : ConfigFlaw) : List ConfigFlaw :=
  if holds then [] else [flaw]

/-- What is wrong with the argument that one key is passed as. -/
def argumentFlaws (type : String) (keys : List String) (mapped : String × String) :
    List ConfigFlaw :=
  flawUnless (keys.contains mapped.1) (.foreignKey type mapped.1 mapped.2)
    ++ flawUnless (Name.ofText? mapped.2).isSome (.argumentName type mapped.1 mapped.2)

/-- What is wrong with the way objects of a type are fetched. -/
def resolverFlaws (type : String) (keys : List String) (resolver : ResolverConfig) :
    List ConfigFlaw :=
  flawUnless (Name.ofText? resolver.queryField).isSome (.queryField type resolver.queryField)
    ++ resolver.arguments.flatMap (argumentFlaws type keys)

def typeFlaws (identity : IdentityConfig) (entry : String × TypeConfig) : List ConfigFlaw :=
  let (type, config) := entry
  flawUnless (Name.ofText? type).isSome (.typeName type)
    ++ (notNames config.keys).map (.typeKey type)
    ++ config.resolver.toList.flatMap (resolverFlaws type (identity.keysFor type))

/-- All that is wrong with a configuration. -/
def flaws (config : Config) : List ConfigFlaw :=
  flawUnless config.schema.isFilled .emptySchema
    ++ flawUnless (config.documents.all OneOrMany.isFilled) .emptyDocuments
    ++ (notNames config.identity.defaultKeys).map .defaultKey
    ++ config.identity.types.flatMap (typeFlaws config.identity)

end Config

end QueryPaging
