import QueryPaging.Config.Basic
import QueryPaging.Json.Basic
import QueryPaging.Yaml.Basic

/-!
# Reading configurations

A configuration may be written in several notations. `ConfigForm` lists what is asked of a value of
a notation, and the readers below are written against it.
-/

namespace QueryPaging

/-- The views that a notation has of its values. -/
structure ConfigForm (Written : Type) where
  /-- Whether a value stands for nothing. -/
  isNull : Written → Bool
  /-- The text of a value, where nothing but a text is due. -/
  text? : Written → Option String
  /-- The text of a value, where something else than a text would do as well. -/
  onlyText? : Written → Option String
  /-- The items of a value, where nothing but a list is due. -/
  items? : Written → Option (List Written)
  /-- The items of a value, where something else than a list would do as well. -/
  onlyItems? : Written → Option (List Written)
  entries? : Written → Option (List (String × Written))
  /-- The fields of a record, when the names of its fields are given in order. -/
  fields? : List String → Written → Option (List (String × Written))

namespace ConfigForm

/-- A record may be written as an object or as an array. -/
def json : ConfigForm Json :=
  { isNull := fun
      | .null => true
      | _ => false
    text? := Json.string?
    onlyText? := Json.string?
    items? := Json.array?
    onlyItems? := Json.array?
    entries? := Json.object?
    fields? := Json.record? }

/-- Any scalar will do for a text where a text is due. A record is written as a mapping. -/
def yaml (document : Yaml.Document) : ConfigForm Yaml :=
  { isNull := document.isNull
    text? := document.scalar?
    onlyText? := document.string?
    items? := document.items?
    onlyItems? := document.sequence?
    entries? := document.entries?
    fields? := fun known value => (document.entries? value).bind (Record.fields? known) }

variable {Written : Type} (form : ConfigForm Written)

/-- What `read` makes of a value, or nothing where the value stands for nothing. -/
def optional? {α : Type} (read : Written → Option α) (value : Written) : Option (Option α) :=
  if form.isNull value then some none else (read value).map some

def texts? (value : Written) : Option (List String) := do
  (← form.items? value).mapM form.text?

/-- One text or a list of texts. -/
def oneOrMany? (value : Written) : Option OneOrMany :=
  match form.onlyText? value with
  | some text => some (.one text)
  | none => do
      return .many (← (← form.onlyItems? value).mapM form.onlyText?)

/-- A table. Of several entries with one key the last counts. -/
def table? {Item : Type} (read : Written → Option Item) (value : Written) :
    Option (Table String Item) := do
  let entries ← (← form.entries? value).mapM fun (key, item) => (read item).map (key, ·)
  return Table.ofList entries

end ConfigForm

namespace ResolverConfig

def keys : List String := ["queryField", "arguments"]

def read? {Written : Type} (form : ConfigForm Written) (value : Written) :
    Option ResolverConfig := do
  let fields ← form.fields? keys value
  let queryField ← Record.required? fields "queryField" form.text?
  let arguments ← Record.defaulting? fields "arguments" [] (form.table? form.text?)
  return { queryField, arguments }

end ResolverConfig

namespace TypeConfig

def keyNames : List String := ["keys", "resolve"]

def read? {Written : Type} (form : ConfigForm Written) (value : Written) : Option TypeConfig := do
  let fields ← form.fields? keyNames value
  let keys ← Record.defaulting? fields "keys" [] form.texts?
  let resolver ←
    Record.defaulting? fields "resolve" none (form.optional? (ResolverConfig.read? form))
  return { keys, resolver }

end TypeConfig

namespace Config

def keys : List String := ["schema", "documents", "defaultKeys", "types"]

/-- The configuration that a value spells. -/
def read? {Written : Type} (form : ConfigForm Written) (value : Written) : Option Config := do
  let fields ← form.fields? keys value
  let schema ← Record.required? fields "schema" form.oneOrMany?
  let documents ← Record.defaulting? fields "documents" none (form.optional? form.oneOrMany?)
  let defaultKeys ←
    Record.defaulting? fields "defaultKeys" IdentityConfig.standard.defaultKeys form.texts?
  let types ← Record.defaulting? fields "types" [] (form.table? (TypeConfig.read? form))
  return { schema, documents, identity := { defaultKeys, types } }

end Config

end QueryPaging
