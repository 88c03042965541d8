import QueryPaging.Proofs.Suitability

/-!
# What an augmented field answers

A field that pages by cursors over a connection keeps all that its author selected, in place, and
answers all that a runtime needs of it: its edges with their cursors and the keys of their nodes,
and what its page info tells. Nothing is left to add after that.

- `Augmentation.AnswersPages`: selections answer what is needed of a connection.
- `isAugmented_augment`: augmented selections do, and they hold no more than what was selected and
  what was lacking.
-/

namespace QueryPaging

namespace Augmentation

/-! ## Selected fields -/

/-- A field is selected by its own name and without an alias. -/
def Selects (name : String) (selections : List Selection) : Prop :=
  ∃ field, Selection.field field ∈ selections ∧ field.aliasName = none ∧ field.name.text = name

section Selects

variable {schema : Schema} {config : IdentityConfig} {name type : Name}
  {selections : List Selection}

theorem selects_of_firstPlain?
    (present : (firstPlain? name selections).isSome) :
    Selects name selections := by
  induction selections with
  | nil => cases present
  | cons selection others inductionHypothesis =>
      have selects_of_others : Selects name others → Selects name (selection :: others) := by
        rintro ⟨field, member, unaliased, called⟩
        exact ⟨field, List.mem_cons_of_mem selection member, unaliased, called⟩
      cases selection with
      | field field =>
          rw [firstPlain?_cons_field] at present
          by_cases plain : isPlain name field = true
          · rw [isPlain, Bool.and_eq_true, Option.isNone_iff_eq_none, beq_iff_eq] at plain
            exact ⟨field, List.mem_cons_self, plain.1, congrArg Name.text plain.2⟩
          · rw [if_neg plain] at present
            exact selects_of_others (inductionHypothesis present)
      | spread spread => exact selects_of_others (inductionHypothesis present)
      | inline inline => exact selects_of_others (inductionHypothesis present)

theorem selects_selectAll {names : List Name} (selections : List Selection)
    (member : name ∈ names) :
    Selects name (selectAll names selections) :=
  selects_of_firstPlain? (firstPlain?_selectAll_of_mem selections member)

/-- The field that a type has under some text is called so. -/
theorem isNameText_of_hasField {key : String}
    (has : schema.hasField type key = true) :
    isNameText key = true := by
  rw [Schema.hasField, Bool.or_eq_true, beq_iff_eq] at has
  rcases has with rfl | declared
  · exact Name.typename.wellFormed
  · obtain ⟨definition, found⟩ := Option.isSome_iff_exists.mp declared
    rw [Schema.field?] at found
    obtain ⟨body, _, found⟩ := Option.bind_eq_some_iff.mp found
    obtain ⟨fields, _, found⟩ := Option.bind_eq_some_iff.mp found
    have called : definition.name.text = key := by simpa using List.find?_some found
    rw [← called]
    exact definition.name.wellFormed

theorem exists_mem_declaredKeys {key : String}
    (isKey : key ∈ config.keysFor type)
    (has : schema.hasField type key = true) :
    ∃ name ∈ declaredKeys schema config type, name.text = key := by
  have wellFormed := isNameText_of_hasField has
  have among : key ∈ (config.keysFor type).filter (schema.hasField type ·) :=
    List.mem_filter.mpr ⟨isKey, has⟩
  have named : Name.ofText? key = some ⟨key, wellFormed⟩ := by
    rw [Name.ofText?, dif_pos wellFormed]
  exact ⟨⟨key, wellFormed⟩, List.mem_filterMap.mpr ⟨key, among, named⟩, rfl⟩

end Selects

/-! ## What is needed -/

/-- The selections of a node tell it apart: by each of its keys that its type has, and by its
type. -/
structure AnswersNode (schema : Schema) (config : IdentityConfig) (type : Name)
    (selections : List Selection) : Prop where
  keys : ∀ key ∈ config.keysFor type, schema.hasField type key = true → Selects key selections
  typename : Selects Name.typename selections

/-- The selections of edges answer where each of them stands, and its node if it has one. -/
structure AnswersEdges (schema : Schema) (config : IdentityConfig) (type : Name)
    (selections : List Selection) : Prop where
  cursor : Selects Augmentation.cursor selections
  node : ∀ nodeType, schema.fieldCore? type Name.node = some nodeType →
    ∃ node, firstPlain? Name.node selections = some node ∧
      AnswersNode schema config nodeType node.selections

/-- The selections of a connection answer a page: its edges, and what its page info can tell. -/
structure AnswersPages (schema : Schema) (config : IdentityConfig) (connection : Name)
    (selections : List Selection) : Prop where
  edges : ∃ type edges, schema.fieldCore? connection Augmentation.edges = some type ∧
    firstPlain? Augmentation.edges selections = some edges ∧
      AnswersEdges schema config type edges.selections
  pageInfo : ∃ type info, schema.fieldCore? connection Augmentation.pageInfo = some type ∧
    firstPlain? Augmentation.pageInfo selections = some info ∧
      ∀ name ∈ pageInfoFields, schema.hasField type name = true → Selects name info.selections

section Parts

variable {schema : Schema} {config : IdentityConfig} {connection : Name}

theorem answersNode_augmentNode (type : Name) (selections : List Selection) :
    AnswersNode schema config type (augmentNode schema config type selections) := by
  rw [augmentNode_eq_selectAll]
  constructor
  · intro key isKey has
    obtain ⟨name, declared, rfl⟩ := exists_mem_declaredKeys isKey has
    exact selects_selectAll selections (List.mem_append_left _ declared)
  · apply selects_selectAll selections
    exact List.mem_append_right _ List.mem_cons_self

theorem answersEdges_augmentEdges (type : Name) (selections : List Selection) :
    AnswersEdges schema config type
      (augmentEdges schema config (schema.fieldCore? type Name.node) selections) := by
  constructor
  · apply selects_of_firstPlain?
    exact firstPlain?_select_self ..
  · intro nodeType answered
    have changed := firstPlain?_ensure_self Name.node selections
      (keepsKey_within (augmentNode schema config nodeType))
    have stays := firstPlain?_select cursor changed
    rw [answered, augmentEdges]
    exact ⟨_, stays, answersNode_augmentNode nodeType _⟩

/-- A connection that is augmented answers its pages. -/
theorem answersPages_augmentConnection (selections : List Selection)
    (connects : (ConnectionShape.ofType schema connection).isConnection = true) :
    AnswersPages schema config connection
      (augmentConnection schema config (ConnectionShape.ofType schema connection) selections) := by
  rw [ConnectionShape.isConnection, Bool.and_eq_true, Option.isSome_iff_exists,
    Option.isSome_iff_exists] at connects
  obtain ⟨⟨edgeType, hasEdges⟩, ⟨infoType, hasPageInfo⟩⟩ := connects
  have nodeType : (ConnectionShape.ofType schema connection).node =
      schema.fieldCore? edgeType Name.node := by
    have bound : (ConnectionShape.ofType schema connection).node =
        (ConnectionShape.ofType schema connection).edge.bind
          fun edge => schema.fieldCore? edge Name.node := rfl
    rw [bound, hasEdges, Option.bind_some]
  have apart : edges ≠ pageInfo := by decide
  rw [augmentConnection_eq, hasPageInfo, nodeType]
  constructor
  · have changed := firstPlain?_ensure_self edges selections
      (keepsKey_within (augmentEdges schema config (schema.fieldCore? edgeType Name.node)))
    have stays := (firstPlain?_ensure_of_ne _
      (keepsKey_within (augmentPageInfo schema infoType)) apart).trans changed
    exact ⟨edgeType, _, hasEdges, stays, answersEdges_augmentEdges edgeType _⟩
  · have changed := firstPlain?_ensure_self pageInfo
      (ensure edges
        (within (augmentEdges schema config (schema.fieldCore? edgeType Name.node))) selections)
      (keepsKey_within (augmentPageInfo schema infoType))
    refine ⟨infoType, _, hasPageInfo, changed, ?_⟩
    intro name isTold has
    exact selects_selectAll _ (List.mem_filter.mpr ⟨isTold, has⟩)

end Parts

end Augmentation

/-! ## The paginated field -/

open Augmentation

/-- A field is augmented to page over a connection: it has grown at the ends of selection sets
alone, by fields that were needed and lacking, and it answers its pages. -/
structure IsAugmented (schema : Schema) (config : IdentityConfig) (connection : Name)
    (field augmented : Field) : Prop where
  grown : ∃ growth : Growth,
    augmented = { field with selections := growth.apply field.selections }
  needed : ∀ placed ∈ addedTo schema (some connection) field.selections augmented.selections,
    ∃ set, Needs schema config connection field.selections placed.type set placed.name ∧
      firstPlain? placed.name set = none
  answers : AnswersPages schema config connection augmented.selections

/-- A field that pages by cursors over a connection is augmented, a field that pages by offsets is
left alone, and augmenting a field once more changes nothing. -/
theorem isAugmented_augment (schema : Schema) (config : IdentityConfig) (parentType : String)
    (field : Field) :
    (∀ mode connection, mode ≠ .offset →
      schema.fieldCore? parentType field.name = some connection →
      (ConnectionShape.ofType schema connection).isConnection = true →
        IsAugmented schema config connection field
          (augment schema config parentType mode field)) ∧
      augment schema config parentType .offset field = field ∧
      ∀ mode, augment schema config parentType mode (augment schema config parentType mode field) =
        augment schema config parentType mode field := by
  refine ⟨?_, rfl, ?_⟩
  · intro mode connection pagesByCursors answers connects
    have isCursor : mode.isCursor = true := by
      cases mode with
      | offset => exact absurd rfl pagesByCursors
      | _ => rfl
    have whole : augmentSelections schema config parentType mode field.name field.selections =
        augmentConnection schema config (ConnectionShape.ofType schema connection)
          field.selections := by
      rw [augmentSelections, isCursor, answers]
    rw [augment_eq_within]
    constructor
    · obtain ⟨growth, grown⟩ := exists_augmentSelections_eq schema config parentType mode
        field.name field.selections
      exact ⟨growth, by rw [within, grown]⟩
    · intro placed added
      rw [within, whole] at added
      exact mem_addedTo_augmentConnection_iff.mp added
    · rw [within, whole]
      exact answersPages_augmentConnection field.selections connects
  · intro mode
    rw [augment_eq_within, augment_eq_within, within, within, augmentSelections_augmentSelections]

namespace Feed

def accountType : Name := ⟨"Account", by decide⟩
def handleKey : Name := ⟨"handle", by decide⟩

/-- The feed whose nodes are accounts with an id and a handle. -/
def accountSchema : Schema :=
  let feed := schema [cursorField, ⟨Name.node, [], .named accountType false⟩]
  { feed with
    types := feed.types ++
      [⟨accountType, .object []
        [⟨Identity.idField, [], .named Name.idType true⟩,
          ⟨handleKey, [], .named Name.stringType false⟩]⟩] }

/-- Accounts are told apart by their handles, and would be by their mails if they had any. -/
def accountConfig : IdentityConfig :=
  ⟨["id"], [("Account", ⟨["handle", "mail", "handle"], none⟩)]⟩

/-- A field with the given entries of its edges and of their nodes, next to edges under an alias. -/
def usersField (ofEdges ofNode others : List Selection) : Field :=
  FieldOf.plain users <|
    [.field ⟨some logs, Augmentation.edges, [], [], [.field (FieldOf.plain cursor [])], none⟩,
      .field (FieldOf.plain Augmentation.edges
        (.field (FieldOf.plain Name.node ofNode) :: ofEdges))] ++ others

end Feed

/-- The users are augmented where their author selected no more than the id of a node. -/
theorem isAugmented_augment_users :
    let authored := Feed.usersField [] [.field (FieldOf.plain Identity.idField [])] []
    PagingMode.cursorForward ≠ .offset ∧
      Feed.accountSchema.fieldCore? Sample.queryType authored.name = some Feed.connectionType ∧
      (ConnectionShape.ofType Feed.accountSchema Feed.connectionType).isConnection = true ∧
      IsAugmented Feed.accountSchema Feed.accountConfig Feed.connectionType authored
        (augment Feed.accountSchema Feed.accountConfig Sample.queryType .cursorForward
          authored) := by
  intro authored
  have pagesByCursors : PagingMode.cursorForward ≠ .offset := by decide
  have answers :
      Feed.accountSchema.fieldCore? Sample.queryType authored.name = some Feed.connectionType := rfl
  have connects :
      (ConnectionShape.ofType Feed.accountSchema Feed.connectionType).isConnection = true := rfl
  have augmented := (isAugmented_augment Feed.accountSchema Feed.accountConfig Sample.queryType
    authored).1 .cursorForward Feed.connectionType pagesByCursors answers connects
  exact ⟨pagesByCursors, answers, connects, augmented⟩

/-- What is added stands behind what was selected, and below the first edges without an alias. -/
example :
    augment Feed.accountSchema Feed.accountConfig Sample.queryType .cursorForward
        (Feed.usersField [] [.field (FieldOf.plain Identity.idField [])] []) =
      Feed.usersField [.field (FieldOf.plain cursor [])]
        [.field (FieldOf.plain Identity.idField []), .field (FieldOf.plain Feed.handleKey []),
          .field (FieldOf.plain Name.typename [])]
        [.field (FieldOf.plain Augmentation.pageInfo
          [.field (FieldOf.plain Feed.hasNextPage [])])] :=
  rfl

end QueryPaging
