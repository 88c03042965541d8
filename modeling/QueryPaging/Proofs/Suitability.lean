import QueryPaging.Proofs.Additions

/-!
# Whether augmentation adds what the schema declares

Of the fields that augmentation needs, the mode of the paginated field tells that its type has edges
and a page info, and the types of nodes and page infos are looked at before anything is added to
them. Nothing tells that edges have a cursor.

- `PlacedField.IsDeclared`: the type of a selection set has the field.
- `Augmentation.forall_isDeclared_iff`: when all that is added is declared.
- `Pipeline.areDeclared_additions_iff`: the same for a processed document.
-/

namespace QueryPaging

/-- The type has the field, be it declared or the one that every type has. -/
def PlacedField.IsDeclared (schema : Schema) (placed : PlacedField) : Prop :=
  placed.name = Name.typename ∨
    ∃ type, placed.type = some type ∧ (schema.field? type placed.name).isSome

namespace Augmentation

variable {schema : Schema} {config : IdentityConfig} {connection : Name}
  {selections : List Selection}

/-- A selection set that is made on a type can do with a field of this name: it is selected there
plainly, or the type has it. -/
def Suits (schema : Schema) (type : Option Name) (set : List Selection) (name : Name) : Prop :=
  (firstPlain? name set).isSome ∨ PlacedField.IsDeclared schema ⟨type, name⟩

theorem isDeclared_of_hasField {type name : Name}
    (has : schema.hasField type name = true) :
    PlacedField.IsDeclared schema ⟨some type, name⟩ := by
  rw [Schema.hasField, Bool.or_eq_true, beq_iff_eq] at has
  rcases has with same | declared
  · exact .inl (Name.eq_of_text_eq same)
  · exact .inr ⟨type, rfl, declared⟩

theorem isDeclared_of_fieldCore? {type name answered : Name}
    (answers : schema.fieldCore? type name = some answered) :
    PlacedField.IsDeclared schema ⟨some type, name⟩ := by
  apply isDeclared_of_hasField
  rw [Schema.fieldCore?, Schema.fieldType?] at answers
  rw [Schema.hasField, Bool.or_eq_true, beq_iff_eq]
  split at answers
  · next same => exact .inl same
  · rw [Option.map_map, Option.map_eq_some_iff] at answers
    obtain ⟨definition, declared, _⟩ := answers
    exact .inr (by rw [declared]; rfl)

theorem hasField_of_mem_declaredKeys {type name : Name}
    (isKey : name ∈ declaredKeys schema config type) :
    schema.hasField type name = true := by
  obtain ⟨text, member, isName⟩ := List.mem_filterMap.mp isKey
  rw [Name.text_of_ofText?_eq_some isName]
  exact (List.mem_filter.mp member).2

/-- Whether augmentation adds declared fields alone rests on three of the fields that it needs,
since the types of the others are looked at first. -/
theorem forall_isDeclared_iff :
    (∀ placed ∈ addedTo schema (some connection) selections
        (augmentConnection schema config (ConnectionShape.ofType schema connection) selections),
      placed.IsDeclared schema) ↔
    Suits schema (some connection) selections edges ∧
      Suits schema (some connection) selections pageInfo ∧
      Suits schema (schema.fieldCore? connection edges) (plainSelections edges selections)
        cursor := by
  have suits_iff : ∀ {type : Option Name} {set : List Selection} {name : Name},
      Suits schema type set name ↔
        (firstPlain? name set = none → PlacedField.IsDeclared schema ⟨type, name⟩) := by
    intro type set name
    rw [Suits]
    cases firstPlain? name set <;> simp
  simp only [suits_iff]
  constructor
  · intro declared
    exact ⟨fun lacks => declared _ (mem_addedTo_augmentConnection_iff.mpr ⟨_, .edges, lacks⟩),
      fun lacks => declared _ (mem_addedTo_augmentConnection_iff.mpr ⟨_, .pageInfo, lacks⟩),
      fun lacks => declared _ (mem_addedTo_augmentConnection_iff.mpr ⟨_, .cursor, lacks⟩)⟩
  · rintro ⟨edgesSuit, pageInfoSuits, cursorSuits⟩ ⟨type, name⟩ added
    obtain ⟨set, needs, lacks⟩ := mem_addedTo_augmentConnection_iff.mp added
    cases needs with
    | edges => exact edgesSuit lacks
    | pageInfo => exact pageInfoSuits lacks
    | cursor => exact cursorSuits lacks
    | node answered =>
        obtain ⟨edge, isEdge, hasNode⟩ := Option.bind_eq_some_iff.mp answered
        have sameEdge : schema.fieldCore? connection edges = some edge := isEdge
        change PlacedField.IsDeclared schema ⟨schema.fieldCore? connection edges, Name.node⟩
        rw [sameEdge]
        exact isDeclared_of_fieldCore? hasNode
    | key _ isKey => exact isDeclared_of_hasField (hasField_of_mem_declaredKeys isKey)
    | typename => exact .inl rfl
    | page _ _ declared => exact isDeclared_of_hasField declared

/-- A connection has edges and a page info. -/
theorem isDeclared_of_isConnection
    (connects : (ConnectionShape.ofType schema connection).isConnection = true) :
    PlacedField.IsDeclared schema ⟨some connection, edges⟩ ∧
      PlacedField.IsDeclared schema ⟨some connection, pageInfo⟩ := by
  rw [ConnectionShape.isConnection, Bool.and_eq_true, Option.isSome_iff_exists,
    Option.isSome_iff_exists] at connects
  obtain ⟨⟨edge, hasEdges⟩, ⟨info, hasPageInfo⟩⟩ := connects
  exact ⟨isDeclared_of_fieldCore? hasEdges, isDeclared_of_fieldCore? hasPageInfo⟩

end Augmentation

namespace Pipeline

open Augmentation

/-- All fields that are added to a document that pages by cursors are ones that their types have,
unless the type of its edges has no cursor and none is selected. The edges themselves and the page
info are declared by any field that pages by cursors, save one that goes by the name of the field
that every type has. -/
theorem areDeclared_additions_iff {schema : Schema} {config : IdentityConfig}
    {document : Document} {processed : Processed} {field : PaginatedField} {mode : PagingMode}
    (result : process schema config document = .ok (some processed))
    (isFound : PaginatedField.find schema document = .ok (some field))
    (isDetected : PagingMode.detect schema field = .ok mode)
    (isCursor : mode.isCursor = true) :
    ∃ target paged connection,
      document.field? field.indices = some target ∧
      processed.document.field? field.indices = some paged ∧
      schema.fieldCore? field.parentType field.name = some connection ∧
      ((∀ placed ∈ addedTo schema (some connection) target.selections paged.selections,
          placed.IsDeclared schema) ↔
        Suits schema (schema.fieldCore? connection edges)
            (plainSelections edges target.selections) cursor ∧
          (field.name = Name.typename →
            Suits schema (some connection) target.selections edges ∧
            Suits schema (some connection) target.selections pageInfo)) := by
  obtain ⟨target, paged, connection, stands, stays, answers, connects, whole⟩ :=
    exists_augmented_of_process result isFound isDetected isCursor
  refine ⟨target, paged, connection, stands, stays, answers, ?_⟩
  rw [whole, forall_isDeclared_iff]
  constructor
  · rintro ⟨edgesSuit, pageInfoSuits, cursorSuits⟩
    exact ⟨cursorSuits, fun _ => ⟨edgesSuit, pageInfoSuits⟩⟩
  · rintro ⟨cursorSuits, others⟩
    by_cases same : field.name = Name.typename
    · exact ⟨(others same).1, (others same).2, cursorSuits⟩
    · obtain ⟨hasEdges, hasPageInfo⟩ := isDeclared_of_isConnection (connects same)
      exact ⟨.inr hasEdges, .inr hasPageInfo, cursorSuits⟩

/-- Where edges have a cursor and a node, all that is added to an empty selection set is declared. -/
theorem areDeclared_additions_iff_users :
    let feed := Feed.schema [Feed.cursorField, Feed.nodeField]
    ∃ processed field,
      process feed .standard (Feed.usersOperation []) = .ok (some processed) ∧
      PaginatedField.find feed (Feed.usersOperation []) = .ok (some field) ∧
      PagingMode.detect feed field = .ok .cursorForward ∧
      PagingMode.cursorForward.isCursor = true ∧
      ∃ target paged, (Feed.usersOperation []).field? field.indices = some target ∧
        processed.document.field? field.indices = some paged ∧
        ∀ placed ∈ addedTo feed (some Feed.connectionType) target.selections paged.selections,
          placed.IsDeclared feed := by
  intro feed
  refine ⟨_, _, rfl, rfl, rfl, rfl, ?_⟩
  obtain ⟨target, paged, connection, stands, stays, answers, declared⟩ :=
    @areDeclared_additions_iff feed .standard (Feed.usersOperation []) _ _ _ rfl rfl rfl rfl
  cases answers
  exact ⟨target, paged, stands, stays,
    declared.mpr ⟨.inr (.inr ⟨_, rfl, rfl⟩), fun same => absurd same (by decide)⟩⟩

/-- Where edges have no cursor, one is added all the same. -/
theorem not_forall_areDeclared_additions :
    ¬ ∀ (schema : Schema) (config : IdentityConfig) (document : Document) (processed : Processed)
      (field : PaginatedField) (mode : PagingMode) (target paged : Field) (connection : Name),
      process schema config document = .ok (some processed) →
      PaginatedField.find schema document = .ok (some field) →
      PagingMode.detect schema field = .ok mode →
      mode.isCursor = true →
      document.field? field.indices = some target →
      processed.document.field? field.indices = some paged →
      schema.fieldCore? field.parentType field.name = some connection →
        ∀ placed ∈ addedTo schema (some connection) target.selections paged.selections,
          placed.IsDeclared schema := by
  intro always
  have declared := always (Feed.schema [Feed.nodeField]) .standard (Feed.usersOperation [])
    _ _ _ _ _ Feed.connectionType rfl rfl rfl rfl rfl rfl rfl ⟨some Feed.edgeType, cursor⟩
    (by decide)
  rcases declared with isTypename | ⟨type, same, isDeclared⟩
  · exact absurd isTypename (by decide)
  · cases same
    exact absurd isDeclared (by decide)

end Pipeline

end QueryPaging
