import QueryPaging.Document
import QueryPaging.Schema.Basic

/-!
# The paginated field

A document pages through at most one field, the one marked with `@paginate`. It is looked for in
fields and inline fragments; a fragment that is spread is a document of its own.
-/

namespace QueryPaging

/-- The field of a document that is marked with `@paginate`. -/
structure PaginatedField where
  name : Name
  /-- The alias if there is one, or else the name. -/
  responseKey : Name
  /-- The arguments as they were written. -/
  arguments : List Argument
  /-- The response keys from the root of the document to the field itself. -/
  path : List Name
  /-- The type that declares the field. -/
  parentType : Name
  pageSize : Option Value
  span : Option Span
  /-- The position of the field among the selections of the document. -/
  indices : List Nat

namespace PaginatedField

/-- The path as it is shown to authors. -/
def renderPath (field : PaginatedField) : String :=
  QueryPaging.renderPath field.path

def argument? (field : PaginatedField) (name : Name) : Option Value :=
  (field.arguments.find? (·.name == name)).map (·.value)

end PaginatedField

/-- A marked field as it is met on the way through a document. -/
structure MarkedField where
  field : Field
  mark : Directive
  parentType : Option Name
  path : List Name
  indices : List Nat

namespace MarkedField

/-- The mark on a field, as a list of at most one. -/
def ofField (field : Field) (parent : Option Name) (path : List Name) (indices : List Nat) :
    List MarkedField :=
  match PassDirective.findPaginate? field.directives with
  | some mark => [⟨field, mark, parent, path, indices⟩]
  | none => []

/-- The type that the selections of a field are made on. -/
def childType (schema : Schema) (parent : Option Name) (field : Name) : Option Name :=
  parent.bind fun type => schema.fieldCore? type field

mutual

def inSelection (schema : Schema) (parent : Option Name) (path : List Name)
    (indices : List Nat) : Selection → List MarkedField
  | .field ⟨aliasName, name, arguments, directives, selections, span⟩ =>
      let field : Field := ⟨aliasName, name, arguments, directives, selections, span⟩
      let path := path ++ [field.responseKey]
      ofField field parent path indices
        ++ inSelections schema (childType schema parent name) path indices 0 selections
  | .inline ⟨condition, _, selections⟩ =>
      inSelections schema (condition <|> parent) path indices 0 selections
  | .spread _ => []

/-- The marked fields of selections that begin at an index of their selection set. -/
def inSelections (schema : Schema) (parent : Option Name) (path : List Name)
    (indices : List Nat) (index : Nat) : List Selection → List MarkedField
  | [] => []
  | selection :: others =>
      inSelection schema parent path (indices ++ [index]) selection
        ++ inSelections schema parent path indices (index + 1) others

end

/-- The type that the selections of a document are made on. -/
def rootType (schema : Schema) : Definition → Option Name
  | .fragment body => some body.condition
  | .operation body =>
      match body.kind with
      | .query => schema.queryRoot?
      | _ => none

def inDefinition (schema : Schema) (definition : Definition) : List MarkedField :=
  inSelections schema (rootType schema definition) [] [] 0 definition.selections

end MarkedField

namespace PaginatedField

def pageSizeOf (mark : Directive) : Except Fault (Option Value) := do
  match ← PassDirective.decode mark with
  | some (.paginate pageSize) => return pageSize
  | _ => return none

/-- The paginated field that the only mark of a document stands for. -/
def ofMarked (found : MarkedField) : Except Fault PaginatedField := do
  let pageSize ← pageSizeOf found.mark
  match found.parentType with
  | none => throw (.unsupportedShape (QueryPaging.renderPath found.path) .unknownParent)
  | some parentType =>
      return {
        name := found.field.name
        responseKey := found.field.responseKey
        arguments := found.field.arguments
        path := found.path
        parentType
        pageSize
        span := found.field.span
        indices := found.indices }

/-- The paginated field of a definition, or nothing where no field is marked. -/
def findIn (schema : Schema) (definition : Definition) :
    Except Fault (Option PaginatedField) :=
  match MarkedField.inDefinition schema definition with
  | [] => .ok none
  | first :: second :: _ => .error (.multipleFields first.path second.path)
  | [found] =>
      match definition with
      | .operation ⟨.mutation, _, _, _, _, _⟩ => .error (.unsupportedOperation .mutation)
      | .operation ⟨.subscription, _, _, _, _, _⟩ => .error (.unsupportedOperation .subscription)
      | _ => (ofMarked found).map some

/-- The paginated field of a document, or nothing where no field is marked. -/
def find (schema : Schema) (document : Document) : Except Fault (Option PaginatedField) :=
  match document.primary? with
  | none => .ok none
  | some definition => findIn schema definition

end PaginatedField

end QueryPaging
