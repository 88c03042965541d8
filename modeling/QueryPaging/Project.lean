import QueryPaging.Config.Loading
import QueryPaging.Diagnostic
import QueryPaging.Document.Collecting
import QueryPaging.Fault
import QueryPaging.Files.Search
import QueryPaging.Schema.Build
import QueryPaging.Schema.Validity

/-!
# Projects

A project is a configuration file with the schema files and document files it names. Paths in a
configuration are taken from the directory of its file. Loading stops at the first fault: first the
configuration is read, then the schema, then the documents in the order of their paths.
-/

namespace QueryPaging

/-- Why a schema cannot be used. -/
inductive SchemaFault where
  /-- A text cannot be read, or the definitions do not make a schema together. -/
  | notBuilt
  | flawed (flaw : SchemaFlaw)
deriving DecidableEq

namespace SchemaFault

def message : SchemaFault → String
  | .notBuilt => "its definitions do not make a schema"
  | .flawed flaw => flaw.message

end SchemaFault

/-- Why a project cannot be loaded. -/
inductive LoadFault where
  | noConfig (directory : String)
  | unreadableConfig (fault : ReadFault)
  | config (path : String) (fault : ConfigFault)
  | pattern (text : String)
  | unreadable (file : Unreadable)
  | schema (fault : SchemaFault)
  | malformedDocument (source : String)
deriving DecidableEq

namespace LoadFault

def message : LoadFault → String
  | .noConfig directory => "no config file found in " ++ directory ++ " or any parent directory"
  | .unreadableConfig fault => "failed to read config file: " ++ fault.message
  | .config path fault => fault.message path
  | .pattern text => "invalid document pattern " ++ quoted text ++ ": its wildcards are malformed"
  | .unreadable file => file.message
  | .schema fault => "invalid schema:\n" ++ fault.message
  | .malformedDocument source => "failed to parse " ++ source ++ ": it is not a document"

end LoadFault

/-- The schema that some texts make together, if it is valid. -/
def Schema.ofTexts (texts : List String) : Except SchemaFault Schema :=
  match (texts.mapM sourceDefinitions?).bind (Schema.ofDefinitions? ·.flatten) with
  | none => .error .notBuilt
  | some schema =>
      match schema.flaws with
      | [] => .ok schema
      | flaw :: _ => .error (.flawed flaw)

/-- A configuration with the schema and the documents it names. -/
structure Project where
  config : Config
  schema : Schema
  documents : List Document
  /-- The text of every document file, by the source that its documents carry. -/
  sources : Table String String

namespace Project

/-- The names of configuration files. In a directory with several of them the first counts. -/
def configNames : List String :=
  ["paginate.config.yml", "paginate.config.yaml", "paginate.config.json",
    ConfigLanguage.bareFileName]

variable {m : Type → Type} [Monad m]

/-- The loading of a project in some monad. -/
abbrev Loading (m : Type → Type) := ExceptT LoadFault m

/-- A step of loading, with its fault told as one of the whole project. -/
def orFault {Cause Result : Type} (fault : Cause → LoadFault) :
    Except Cause Result → Loading m Result
  | .ok result => return result
  | .error cause => throw (fault cause)

/-- The configuration file nearest to a directory: in the directory itself, or else in the closest
one above it. -/
def findConfig (access : FileAccess m) (directory : String) : Loading m String := do
  let candidates := (Path.ancestors directory).flatMap fun above =>
    configNames.map (Path.join above)
  for path in candidates do
    if (← access.kind? path) = some .file then
      return path
  throw (.noConfig directory)

/-- The text of a schema or document file. -/
def readFile (access : FileAccess m) (path : String) : Loading m String := do
  orFault (fun fault => .unreadable ⟨path, fault⟩) (← access.read path)

/-- The valid configuration in a file. -/
def readConfig (access : FileAccess m) (path : String) : Loading m Config := do
  let text ← orFault .unreadableConfig (← access.read path)
  orFault (.config path) (Config.load path text)

def readSchema (access : FileAccess m) (directory : String) (config : Config) :
    Loading m Schema := do
  let texts ← config.schema.toList.mapM fun path => readFile access (Path.join directory path)
  orFault .schema (Schema.ofTexts texts)

/-- The files that fit one of the patterns a configuration names. -/
def findDocuments (access : FileAccess m) (directory : String) (config : Config) :
    Loading m (List String) := do
  let patterns := (config.documents.map OneOrMany.toList).getD []
  let found ← patterns.mapM fun text => do
    match PathPattern.ofText? (Path.join directory text) with
    | none => throw (.pattern text)
    | some pattern => orFault .unreadable (← (Search.files access pattern).run)
  return found.flatten.foldl (fun paths path => Path.insertSorted path paths) []

/-- The documents in a file, with its source and its text. -/
def readDocuments (access : FileAccess m) (directory path : String) :
    Loading m (List Document × String × String) := do
  let text ← readFile access path
  let source := Path.relativeTo directory path
  match Document.collect? source text with
  | some documents => return (documents, source, text)
  | none => throw (.malformedDocument source)

def ofConfigFile (access : FileAccess m) (path : String) : Loading m Project := do
  let config ← readConfig access path
  let directory := (Path.parent? path).getD ""
  let schema ← readSchema access directory config
  let files ← (← findDocuments access directory config).mapM (readDocuments access directory)
  return {
    config
    schema
    documents := files.flatMap (·.1)
    sources := Table.ofList (files.map (·.2)) }

/-- Load the project of a given configuration file, or else that of the one nearest to the working
directory. -/
def load (access : FileAccess m) (workingDirectory : String) (configPath : Option String) :
    Loading m Project := do
  match configPath with
  | some path => ofConfigFile access path
  | none => ofConfigFile access (← findConfig access workingDirectory)

/-- Where a diagnostic belongs: its source, with the line and the column if they are known. -/
def location (project : Project) (diagnostic : Diagnostic) : String :=
  match diagnostic.span, project.sources.get? diagnostic.source with
  | some span, some text =>
      diagnostic.source ++ ":" ++ ((LineIndex.ofText text).position span.start).render
  | _, _ => diagnostic.source

end Project

end QueryPaging
