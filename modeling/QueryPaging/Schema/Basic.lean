import QueryPaging.Graphql.TypeSystem

/-!
# Schemas

A schema is the list of its types, in the order they were defined, with the types operations
start from. The lookups take texts rather than names, because configuration speaks of types and
fields by texts that need not be names.

- `Schema.mem_possibleTypes_iff`: which objects may stand where a type is expected.
-/

namespace QueryPaging

/-- The types of a schema, and where operations start. -/
structure Schema where
  types : List TypeDefinition
  roots : List RootOperation
  directives : List DirectiveDefinition

namespace TypeBody

/-- The fields a type declares, if its kind has fields that can be selected. -/
def fields? : TypeBody → Option (List FieldDefinition)
  | .object _ fields => some fields
  | .interface _ fields => some fields
  | _ => none

/-- The interfaces a type declares that it implements. -/
def interfaces : TypeBody → List Name
  | .object interfaces _ => interfaces
  | .interface interfaces _ => interfaces
  | _ => []

def isObject : TypeBody → Bool
  | .object _ _ => true
  | _ => false

/-- Whether an object of some other type may stand where this one is expected. -/
def isAbstract : TypeBody → Bool
  | .interface _ _ => true
  | .union _ => true
  | _ => false

def inputFields? : TypeBody → Option (List InputValue)
  | .input fields => some fields
  | _ => none

end TypeBody

namespace Schema

def type? (schema : Schema) (type : String) : Option TypeBody :=
  (schema.types.find? (·.name.text == type)).map (·.body)

def root? (schema : Schema) (kind : OperationKind) : Option Name :=
  (schema.roots.find? (·.kind == kind)).map (·.type)

/-- The type queries start from. -/
def queryRoot? (schema : Schema) : Option Name :=
  schema.root? .query

/-- The definition of a field on an object or interface type. -/
def field? (schema : Schema) (type field : String) : Option FieldDefinition := do
  let fields ← (← schema.type? type).fields?
  fields.find? (·.name.text == field)

/-- The type of a field. Every type, known or not, has the field that answers its name. -/
def fieldType? (schema : Schema) (type field : String) : Option TypeRef :=
  if field = Name.typename.text then
    some (.named Name.stringType true)
  else
    (schema.field? type field).map (·.type)

/-- The named type at the core of a field's type. -/
def fieldCore? (schema : Schema) (type field : String) : Option Name :=
  (schema.fieldType? type field).map TypeRef.inner

def hasField (schema : Schema) (type field : String) : Bool :=
  field == Name.typename.text || (schema.field? type field).isSome

def isAbstract (schema : Schema) (type : String) : Bool :=
  (schema.type? type).any TypeBody.isAbstract

/-- Whether a type is an interface, or declares that it implements it. -/
def implements (schema : Schema) (type interface : String) : Bool :=
  type == interface
    || (schema.type? type).any (·.interfaces.any (·.text == interface))

/-- The object types that may stand where a type is expected, in schema order. -/
def possibleTypes (schema : Schema) (type : String) : List Name :=
  match schema.types.find? (·.name.text == type) with
  | some ⟨name, .object _ _⟩ => [name]
  | some ⟨_, .union members⟩ => members
  | some ⟨_, .interface _ _⟩ =>
      (schema.types.filter fun candidate =>
        candidate.body.isObject && schema.implements candidate.name type).map (·.name)
  | _ => []

/-- That an object may stand where a type is expected: it is that type, a member of that union, or
it implements that interface. -/
inductive IsPossible (schema : Schema) (type : String) (object : Name) : Prop where
  | itself {interfaces : List Name} {fields : List FieldDefinition}
      (declared : schema.type? type = some (.object interfaces fields))
      (named : object.text = type) :
      IsPossible schema type object
  | member {members : List Name}
      (declared : schema.type? type = some (.union members))
      (among : object ∈ members) :
      IsPossible schema type object
  | implementer {interfaces : List Name} {fields : List FieldDefinition}
      {candidate : TypeDefinition}
      (declared : schema.type? type = some (.interface interfaces fields))
      (among : candidate ∈ schema.types)
      (isObject : candidate.body.isObject = true)
      (implements : schema.implements candidate.name type = true)
      (named : object = candidate.name) :
      IsPossible schema type object

theorem mem_possibleTypes_iff {schema : Schema} {type : String} {object : Name} :
    object ∈ schema.possibleTypes type ↔ schema.IsPossible type object := by
  have body : schema.type? type = (schema.types.find? (·.name.text == type)).map (·.body) := rfl
  constructor
  · intro member
    unfold possibleTypes at member
    split at member
    · next name interfaces fields found =>
        rw [found] at body
        refine .itself body ?_
        rw [List.mem_singleton.mp member]
        simpa using List.find?_some found
    · next members found =>
        rw [found] at body
        exact .member body member
    · next interfaces fields found =>
        rw [found] at body
        obtain ⟨candidate, among, rfl⟩ := List.mem_map.mp member
        obtain ⟨isType, isCandidate⟩ := List.mem_filter.mp among
        obtain ⟨isObject, implements⟩ := Bool.and_eq_true_iff.mp isCandidate
        exact .implementer body isType isObject implements rfl
    · cases member
  · intro possible
    unfold possibleTypes
    cases possible with
    | itself declared named =>
        rw [body] at declared
        obtain ⟨⟨name, _⟩, found, rfl⟩ := Option.map_eq_some_iff.mp declared
        have sameText : name.text = type := by simpa using List.find?_some found
        rw [found]
        exact List.mem_singleton.mpr (Name.eq_of_text_eq (named.trans sameText.symm))
    | member declared among =>
        rw [body] at declared
        obtain ⟨⟨name, _⟩, found, rfl⟩ := Option.map_eq_some_iff.mp declared
        rw [found]
        exact among
    | @implementer _ _ candidate declared among isObject implements named =>
        rw [body] at declared
        obtain ⟨⟨name, _⟩, found, rfl⟩ := Option.map_eq_some_iff.mp declared
        rw [found, named]
        exact List.mem_map_of_mem
          (List.mem_filter.mpr ⟨among, Bool.and_eq_true_iff.mpr ⟨isObject, implements⟩⟩)

def inputFields? (schema : Schema) (type : String) : Option (List InputValue) := do
  (← schema.type? type).inputFields?

end Schema

end QueryPaging
