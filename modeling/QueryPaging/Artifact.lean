import QueryPaging.Metadata.Building
import QueryPaging.Refetch.Json

/-!
# Artifacts

The record that a build writes out for a query: its text, its hash, its selection metadata and the
input types that its variables reach.
-/

namespace QueryPaging

/-- The variables of a query and the input types they reach. -/
structure ArtifactInput where
  /-- The named type of each variable. -/
  fields : Table String String
  /-- The named type of each field of each input type. -/
  types : Table String (Table String String)

/-- The record of a query. -/
structure Artifact where
  name : String
  hash : String
  refetch : Option RefetchSpec
  raw : String
  rootType : String
  selection : SelectionMetadata
  input : ArtifactInput

/-! ## Input types -/

namespace ArtifactInput

def isEmpty (input : ArtifactInput) : Bool :=
  input.fields.isEmpty

def inputFields? (types : List TypeDefinition) (name : Name) : Option (List InputValue) :=
  (types.find? (·.name == name)).bind (·.body.inputFields?)

def withoutType (name : Name) (types : List TypeDefinition) : List TypeDefinition :=
  types.filter (·.name != name)

theorem length_withoutType_lt {types : List TypeDefinition} {name : Name} {fields : List InputValue}
    (found : inputFields? types name = some fields) :
    (withoutType name types).length < types.length := by
  rw [inputFields?, Option.bind_eq_some_iff] at found
  obtain ⟨type, among, _⟩ := found
  have member := List.mem_of_find?_eq_some among
  have named := List.find?_some among
  refine List.length_filter_lt_length_iff_exists.2 ⟨type, member, ?_⟩
  simpa using named

/-- The input types reached from pending type names, each once, in depth-first order. `unvisited`
holds the types not reached yet. -/
def reach (unvisited : List TypeDefinition) (pending : List Name) :
    Table String (Table String String) :=
  match pending with
  | [] => []
  | name :: others =>
      match _found : inputFields? unvisited name with
      | none => reach unvisited others
      | some fields =>
          let entries := fields.map fun field => (field.name.text, field.type.inner.text)
          (name.text, entries)
            :: reach (withoutType name unvisited)
              (fields.map (·.type.inner) ++ others)
termination_by (unvisited.length, pending.length)
decreasing_by
  · exact Prod.Lex.right _ (by simp)
  · exact Prod.Lex.left _ _ (length_withoutType_lt _found)

def ofDeclarations (schema : Schema) (declarations : List VariableDefinition) : ArtifactInput :=
  { fields := Table.ofList
      (declarations.map fun wanted => (wanted.name.text, wanted.type.inner.text))
    types := reach schema.types (declarations.map (·.type.inner)) }

def toJson (input : ArtifactInput) : Json :=
  let entries (table : Table String String) : Json :=
    .object (table.map fun (key, type) => (key, .string type))
  .object [("fields", entries input.fields),
    ("types", .object (input.types.map fun (type, fields) => (type, entries fields)))]

end ArtifactInput

/-! ## Records -/

namespace Artifact

/-- How many generated definitions lead to the paginated field: in a generated query, the query
itself and the wrapper. -/
def variants (document : Document) : Nat :=
  if document.isGenerated then 2 else 1

/-- The hash of a document: the one it was generated with, or else that of its text. -/
def hashOf (document : Document) : String :=
  match document.generated with
  | some provenance => provenance.hash
  | none => contentHash (normalizedText document.definitions)

/-- The record of a document. Only queries have one. -/
def build? (schema : Schema) (document : Document) : Option Artifact := do
  let operation ← document.operation?
  if operation.kind ≠ .query then none
  let root ← schema.queryRoot?
  return {
    name := document.name
    hash := hashOf document
    refetch := document.refetch
    raw := rawText document.definitions
    rootType := root
    selection :=
      selectionMetadata schema document.definitions root document.refetch (variants document)
    input := ArtifactInput.ofDeclarations schema operation.declarations }

def toJson (artifact : Artifact) : Json :=
  .object
    ([("name", .string artifact.name), ("kind", .string "Query"), ("hash", .string artifact.hash)]
      ++ Json.entry? "refetch" RefetchSpec.toJson artifact.refetch
      ++ [("raw", .string artifact.raw), ("rootType", .string artifact.rootType),
        ("selection", artifact.selection.toJson)]
      ++ (if artifact.input.isEmpty then [] else [("input", artifact.input.toJson)]))

end Artifact

end QueryPaging
