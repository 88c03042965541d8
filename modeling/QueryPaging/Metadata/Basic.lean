import QueryPaging.Augmentation
import QueryPaging.Json.Writing
import QueryPaging.Table

/-!
# Selection metadata

What a runtime store walks instead of a document: each response key leads to the type of the field,
to the key it is cached under and, for a paginated list, to the hints by which new pages are joined.

Where a selection is made on an abstract type, fields selected for some of its types only are kept
apart, type by type.
-/

namespace QueryPaging

/-- The selections made for some of the types of an abstract parent. -/
structure AbstractFieldsOf (Entry : Type) where
  /-- The fields that answer each condition. -/
  fields : List (String × List (String × Entry))
  /-- The abstract condition that applies to an object type which has no fields of its own. -/
  typeMap : List (String × String)

/-- The fields of one selection level. -/
structure SelectionMetadataOf (Entry : Type) where
  fields : List (String × Entry)
  abstractFields : Option (AbstractFieldsOf Entry)

/-- What is known about one response key. -/
structure FieldMetadata where
  type : String
  /-- The key the field is cached under. -/
  keyRaw : String
  /-- How new pages are joined, if this is where they are. -/
  updates : List MergeHint
  nullable : Bool
  selection : Option (SelectionMetadataOf FieldMetadata)
  isAbstract : Bool

abbrev AbstractFields := AbstractFieldsOf FieldMetadata
abbrev SelectionMetadata := SelectionMetadataOf FieldMetadata

namespace FieldMetadata

mutual

/-- The metadata of a field as JSON. What is empty or false is left out. -/
def toJson : FieldMetadata → Json
  | ⟨type, keyRaw, updates, nullable, selection, isAbstract⟩ =>
      .object
        ([("type", .string type), ("keyRaw", .string keyRaw)]
          ++ (if updates.isEmpty then []
            else [("updates", Json.ofStrings (updates.map MergeHint.word))])
          ++ (if nullable then [("nullable", .boolean true)] else [])
          ++ optionalSelectionToJson selection
          ++ (if isAbstract then [("abstract", .boolean true)] else []))

def optionalSelectionToJson : Option (SelectionMetadataOf FieldMetadata) → List (String × Json)
  | none => []
  | some selection => [("selection", selectionToJson selection)]

def selectionToJson : SelectionMetadataOf FieldMetadata → Json
  | ⟨fields, abstractFields⟩ =>
      .object (("fields", .object (fieldsToJson fields))
        :: optionalAbstractToJson abstractFields)

def optionalAbstractToJson : Option (AbstractFieldsOf FieldMetadata) → List (String × Json)
  | none => []
  | some ⟨fields, typeMap⟩ =>
      [("abstractFields", .object
        [("fields", .object (conditionsToJson fields)),
          ("typeMap", .object (typeMap.map fun (type, condition) =>
            (type, .string condition)))])]

def fieldsToJson : List (String × FieldMetadata) → List (String × Json)
  | [] => []
  | (key, field) :: others => (key, field.toJson) :: fieldsToJson others

def conditionsToJson : List (String × List (String × FieldMetadata)) → List (String × Json)
  | [] => []
  | (condition, fields) :: others =>
      (condition, .object (fieldsToJson fields)) :: conditionsToJson others

end

end FieldMetadata

def SelectionMetadataOf.toJson (selection : SelectionMetadata) : Json :=
  FieldMetadata.selectionToJson selection

end QueryPaging
