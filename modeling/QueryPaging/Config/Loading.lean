import QueryPaging.Config.Reading
import QueryPaging.Config.Validity
import QueryPaging.Files.Path
import QueryPaging.Json.Reading
import QueryPaging.Json.Writing
import QueryPaging.Yaml.Reading

/-!
# Configuration files

The path of a file tells which notation it is written in. The one file without an extension is read
as YAML if it can be, and as JSON otherwise.
-/

namespace QueryPaging

/-- The notations a configuration may be written in. -/
inductive ConfigLanguage where
  | yaml
  | json
deriving DecidableEq

namespace ConfigLanguage

def name : ConfigLanguage → String
  | .yaml => "YAML"
  | .json => "JSON"

/-- The name of the configuration file that has no extension. -/
def bareFileName : String := ".paginaterc"

/-- The notations that a file is tried in. -/
def forPath (path : String) : List ConfigLanguage :=
  match Path.extension? path with
  | some "yml" => [.yaml]
  | some "yaml" => [.yaml]
  | some "json" => [.json]
  | some _ => []
  | none => if Path.fileName? path = some bareFileName then [.yaml, .json] else []

/-- The configuration that a text spells in a notation. -/
def read? (text : String) : ConfigLanguage → Option Config
  | .yaml => (Yaml.Document.ofText? text).bind fun document =>
      Config.read? (.yaml document) document.root
  | .json => (Json.ofText? text).bind (Config.read? .json)

end ConfigLanguage

/-- Why a configuration file is of no use. -/
inductive ConfigFault where
  | unsupported
  | malformed (language : ConfigLanguage)
  | flawed (flaw : ConfigFlaw)
deriving DecidableEq

namespace ConfigFault

def message (path : String) : ConfigFault → String
  | .unsupported => "unsupported config format: " ++ path
  | .malformed language =>
      "invalid config at " ++ path ++ ": " ++ language.name
        ++ " parse error: the text does not spell a configuration"
  | .flawed flaw => "invalid config at " ++ path ++ ": " ++ flaw.message

end ConfigFault

namespace Config

/-- The configuration a text spells in the first of some notations that can read it. The last
notation is blamed when none can. -/
def readIn (text : String) : List ConfigLanguage → Except ConfigFault Config
  | [] => .error .unsupported
  | language :: others =>
      match language.read? text with
      | some config => .ok config
      | none => if others.isEmpty then .error (.malformed language) else readIn text others

/-- A configuration, unless it has a flaw; of several flaws the first is reported. -/
def validated (config : Config) : Except ConfigFault Config :=
  match config.flaws with
  | [] => .ok config
  | flaw :: _ => .error (.flawed flaw)

/-- The valid configuration in the text of a file. -/
def load (path text : String) : Except ConfigFault Config := do
  (← readIn text (ConfigLanguage.forPath path)).validated

end Config

/-! ## Writing -/

def OneOrMany.toJson : OneOrMany → Json
  | .one text => .string text
  | .many texts => Json.ofStrings texts

/-- An entry that is left out when there is nothing in it. -/
def filledEntry (key : String) (isEmpty : Bool) (value : Json) : List (String × Json) :=
  if isEmpty then [] else [(key, value)]

def ResolverConfig.toJson (resolver : ResolverConfig) : Json :=
  .object
    (("queryField", .string resolver.queryField)
      :: filledEntry "arguments" resolver.arguments.isEmpty
        (.object (resolver.arguments.map fun (key, argument) => (key, .string argument))))

def TypeConfig.toJson (config : TypeConfig) : Json :=
  .object
    (filledEntry "keys" config.keys.isEmpty (Json.ofStrings config.keys)
      ++ Json.entry? "resolve" ResolverConfig.toJson config.resolver)

/-- A configuration as JSON. What is empty is left out, save for the default keys. -/
def Config.toJson (config : Config) : Json :=
  .object
    ([("schema", config.schema.toJson)]
      ++ Json.entry? "documents" OneOrMany.toJson config.documents
      ++ [("defaultKeys", Json.ofStrings config.identity.defaultKeys)]
      ++ filledEntry "types" config.identity.types.isEmpty
        (.object (config.identity.types.map fun (type, held) => (type, held.toJson))))

end QueryPaging
