import QueryPaging.Config.Basic
import QueryPaging.PagingMode

/-!
# Augmentation of selections

A field that pages by cursors has to answer its edges, their cursors, the keys of their nodes and
where the page begins and ends. Whatever of this the author did not select is added behind what the
author did.
-/

namespace QueryPaging

namespace Augmentation

def edges : Name := ⟨"edges", by decide⟩
def cursor : Name := ⟨"cursor", by decide⟩
def pageInfo : Name := ⟨"pageInfo", by decide⟩

def pageInfoFields : List Name :=
  [⟨"hasPreviousPage", by decide⟩, ⟨"hasNextPage", by decide⟩, ⟨"startCursor", by decide⟩,
    ⟨"endCursor", by decide⟩]

/-- Whether a field is selected by this name and without an alias. -/
def isPlain (name : Name) (field : Field) : Bool :=
  field.aliasName.isNone && field.name == name

/-- The selections with the first plain field of a name edited, or with such a field added to
the end. -/
def ensure (name : Name) (edit : Field → Field) : List Selection → List Selection
  | [] => [.field (edit (FieldOf.plain name []))]
  | .field field :: others =>
      if isPlain name field then .field (edit field) :: others
      else .field field :: ensure name edit others
  | other :: others => other :: ensure name edit others

/-- The selections with a plain field of a name among them. -/
def select (name : Name) (selections : List Selection) : List Selection :=
  ensure name id selections

/-- The selections with plain fields of some names among them. -/
def selectAll (names : List Name) (selections : List Selection) : List Selection :=
  names.foldl (fun selections name => select name selections) selections

def within (edit : List Selection → List Selection) (field : Field) : Field :=
  { field with selections := edit field.selections }

def declaredKeys (schema : Schema) (config : IdentityConfig) (type : Name) : List Name :=
  ((config.keysFor type).filter (schema.hasField type ·)).filterMap Name.ofText?

/-- What a node has to answer to be told apart. -/
def augmentNode (schema : Schema) (config : IdentityConfig) (type : Name)
    (selections : List Selection) : List Selection :=
  select Name.typename (selectAll (declaredKeys schema config type) selections)

def augmentEdges (schema : Schema) (config : IdentityConfig) (nodeType : Option Name)
    (selections : List Selection) : List Selection :=
  select cursor <|
    match nodeType with
    | some type => ensure Name.node (within (augmentNode schema config type)) selections
    | none => selections

def augmentPageInfo (schema : Schema) (type : Name) (selections : List Selection) :
    List Selection :=
  selectAll (pageInfoFields.filter fun name => schema.hasField type name) selections

/-- What a connection of a given shape has to answer. -/
def augmentConnection (schema : Schema) (config : IdentityConfig) (shape : ConnectionShape)
    (selections : List Selection) : List Selection :=
  let selections := ensure edges (within (augmentEdges schema config shape.node)) selections
  match shape.pageInfo with
  | some type => ensure pageInfo (within (augmentPageInfo schema type)) selections
  | none => select pageInfo selections

end Augmentation

/-- The field with all it has to answer to be paged through in a mode. -/
def augment (schema : Schema) (config : IdentityConfig) (parentType : String) (mode : PagingMode)
    (field : Field) : Field :=
  if mode.isCursor then
    match schema.fieldCore? parentType field.name with
    | some type =>
        let shape := ConnectionShape.ofType schema type
        Augmentation.within (Augmentation.augmentConnection schema config shape) field
    | none => field
  else
    field

/-- How a runtime joins a new page to the list it has. -/
inductive MergeHint where
  | append
  | prepend
deriving DecidableEq

namespace MergeHint

def word : MergeHint → String
  | .append => "append"
  | .prepend => "prepend"

def forDirection : PagingDirection → List MergeHint
  | .forward => [.append]
  | .backward => [.prepend]
  | .both => [.append, .prepend]

def forSpec (spec : RefetchSpec) : List MergeHint :=
  match spec.method with
  | .cursor => forDirection spec.direction
  | .offset => [.append]

end MergeHint

end QueryPaging
