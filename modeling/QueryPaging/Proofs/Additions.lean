import QueryPaging.Proofs.Fitting
import QueryPaging.Proofs.Growth

/-!
# Which fields augmentation adds

Augmentation needs some fields in the selection set of the paginated field and in three more below
it, and adds those that are not selected there plainly.

- `addedTo`: the fields that selections have and that others in their places have not.
- `Augmentation.Needs`: which fields are needed in which selection set.
- `Augmentation.mem_addedTo_augmentConnection_iff`: just the needed fields that were lacking are
  added.
- `Passage.exists_augmented`: the paginated field of a document before and after.
-/

namespace QueryPaging

/-! ## Fields that others have not -/

/-- A field of a selection set, with the type that the set is made on. -/
structure PlacedField where
  type : Option Name
  name : Name
deriving DecidableEq

/-- The field in some place, if it has this alias and this name. -/
def Selection.fieldAs? (aliasName : Option Name) (name : Name) : Option Selection → Option Field
  | some (.field body) =>
      if body.aliasName = aliasName ∧ body.name = name then some body else none
  | _ => none

/-- The inline fragment in some place, if it has this condition. -/
def Selection.inlineOn? (condition : Option Name) : Option Selection → Option InlineFragment
  | some (.inline body) => if body.condition = condition then some body else none
  | _ => none

mutual

/-- The fields that a selection has and that the one which stood in its place had not. -/
def Selection.added (schema : Schema) (parent : Option Name) (former : Option Selection) :
    Selection → List PlacedField
  | .field ⟨aliasName, name, _, _, selections, _⟩ =>
      match Selection.fieldAs? aliasName name former with
      | some body =>
          addedTo schema (MarkedField.childType schema parent name) body.selections selections
      | none =>
          ⟨parent, name⟩ ::
            addedTo schema (MarkedField.childType schema parent name) [] selections
  | .inline ⟨condition, _, selections⟩ =>
      addedTo schema (condition <|> parent)
        (((Selection.inlineOn? condition former).map (·.selections)).getD []) selections
  | .spread _ => []

/-- The fields that selections have and that the former ones, in the same places, had not. -/
def addedTo (schema : Schema) (parent : Option Name) (former : List Selection) :
    List Selection → List PlacedField
  | [] => []
  | selection :: others =>
      Selection.added schema parent former.head? selection
        ++ addedTo schema parent former.tail others

end

section AddedTo

variable (schema : Schema) (parent : Option Name)

@[simp]
theorem addedTo_nil (former : List Selection) :
    addedTo schema parent former [] = [] := by
  rw [addedTo]

theorem addedTo_cons (former : List Selection) (selection : Selection) (others : List Selection) :
    addedTo schema parent former (selection :: others) =
      Selection.added schema parent former.head? selection
        ++ addedTo schema parent former.tail others := by
  rw [addedTo]

/-- A field that stays has only what is added below it. -/
theorem added_of_same {field former : Field}
    (sameAlias : former.aliasName = field.aliasName)
    (sameName : former.name = field.name) :
    Selection.added schema parent (some (.field former)) (.field field) =
      addedTo schema (MarkedField.childType schema parent field.name) former.selections
        field.selections := by
  cases field
  rw [Selection.added, Selection.fieldAs?, if_pos ⟨sameAlias, sameName⟩]

theorem added_field_none (field : Field) :
    Selection.added schema parent none (.field field) =
      ⟨parent, field.name⟩ ::
        addedTo schema (MarkedField.childType schema parent field.name) [] field.selections := by
  cases field
  rw [Selection.added]
  rfl

theorem added_inline_self (inline : InlineFragment) :
    Selection.added schema parent (some (.inline inline)) (.inline inline) =
      addedTo schema (inline.condition <|> parent) inline.selections inline.selections := by
  cases inline
  rw [Selection.added, Selection.inlineOn?, if_pos rfl]
  rfl

@[simp]
theorem added_spread (former : Option Selection) (spread : Spread) :
    Selection.added schema parent former (.spread spread) = [] := by
  rw [Selection.added]

/-- Selections have nothing that they have not. -/
@[simp]
theorem addedTo_self (selections : List Selection) :
    addedTo schema parent selections selections = [] := by
  induction selections using selectionsInduction generalizing parent with
  | nil => rw [addedTo_nil]
  | field field others below behind =>
      rw [addedTo_cons, List.head?_cons, List.tail_cons, added_of_same schema parent rfl rfl,
        below, behind, List.append_nil]
  | spread spread others behind =>
      rw [addedTo_cons, added_spread, List.tail_cons, behind, List.append_nil]
  | inline inline others below behind =>
      rw [addedTo_cons, List.head?_cons, List.tail_cons, added_inline_self, below, behind,
        List.append_nil]

/-- A selection that stays adds nothing. -/
theorem addedTo_cons_self (selection : Selection) (former others : List Selection) :
    addedTo schema parent (selection :: former) (selection :: others) =
      addedTo schema parent former others := by
  have nothing := addedTo_self schema parent [selection]
  rw [addedTo_cons, List.head?_cons, List.tail_cons, addedTo_nil, List.append_nil] at nothing
  rw [addedTo_cons, List.head?_cons, List.tail_cons, nothing, List.nil_append]

/-- Of selections that stay, what comes behind them is left. -/
theorem addedTo_append_self (selections later : List Selection) :
    addedTo schema parent selections (selections ++ later) = addedTo schema parent [] later := by
  induction selections with
  | nil => rfl
  | cons selection others inductionHypothesis =>
      rw [List.cons_append, addedTo_cons_self, inductionHypothesis]

end AddedTo

namespace Augmentation

/-! ## What ensuring a field adds -/

/-- The selections of the first plain field of a name, none where there is no such field. -/
def plainSelections (name : Name) (selections : List Selection) : List Selection :=
  ((firstPlain? name selections).map (·.selections)).getD []

section Ensure

variable (schema : Schema) (parent : Option Name)
  {name other : Name} {change another : List Selection → List Selection}
  {field : Field} {selections others : List Selection} {placed : PlacedField}

theorem firstPlain?_cons_field (name : Name) (field : Field) (others : List Selection) :
    firstPlain? name (.field field :: others) =
      if isPlain name field then some field else firstPlain? name others := by
  rw [firstPlain?]

theorem plainSelections_cons_of_plain
    (plain : isPlain name field = true) :
    plainSelections name (.field field :: others) = field.selections := by
  rw [plainSelections, firstPlain?_cons_field, if_pos plain]
  rfl

theorem plainSelections_cons_of_not_plain
    (different : ¬ isPlain name field = true) :
    plainSelections name (.field field :: others) = plainSelections name others := by
  rw [plainSelections, firstPlain?_cons_field, if_neg different, plainSelections]

/-- What a plain field adds where nothing was. -/
theorem addedTo_plain (name : Name) (selections : List Selection) :
    addedTo schema parent [] [.field (FieldOf.plain name selections)] =
      ⟨parent, name⟩ ::
        addedTo schema (MarkedField.childType schema parent name) [] selections := by
  rw [addedTo_cons, List.head?_nil, added_field_none, addedTo_nil, List.append_nil]
  rfl

theorem ensure_cons_of_plain
    (plain : isPlain name field = true) :
    ensure name (within change) (.field field :: others) =
      .field (within change field) :: others := by
  rw [ensure, if_pos plain]

theorem ensure_cons_of_not_plain
    (different : ¬ isPlain name field = true) :
    ensure name (within change) (.field field :: others) =
      .field field :: ensure name (within change) others := by
  rw [ensure, if_neg different]

/-- What changing a plain field adds is below it. -/
theorem addedTo_within_cons
    (plain : isPlain name field = true)
    (former later : List Selection) :
    addedTo schema parent (.field field :: former) (.field (within change field) :: later) =
      addedTo schema (MarkedField.childType schema parent name) field.selections
          (change field.selections)
        ++ addedTo schema parent former later := by
  have called : field.name = name := by
    rw [isPlain, Bool.and_eq_true, beq_iff_eq] at plain
    exact plain.2
  have kept : Selection.added schema parent (some (.field field)) (.field (within change field)) =
      addedTo schema (MarkedField.childType schema parent field.name) field.selections
        (change field.selections) :=
    added_of_same schema parent rfl rfl
  rw [addedTo_cons, List.head?_cons, List.tail_cons, kept, called]

/-- Ensuring a field adds the field itself where it was lacking, and what the change adds to the
selections of the field. -/
theorem mem_addedTo_ensure_iff :
    placed ∈ addedTo schema parent selections (ensure name (within change) selections) ↔
      (placed = ⟨parent, name⟩ ∧ firstPlain? name selections = none) ∨
      placed ∈ addedTo schema (MarkedField.childType schema parent name)
        (plainSelections name selections) (change (plainSelections name selections)) := by
  induction selections with
  | nil =>
      have whole : ensure name (within change) [] =
          [.field (FieldOf.plain name (change []))] := rfl
      rw [whole, addedTo_plain, List.mem_cons]
      simp [plainSelections, firstPlain?]
  | cons selection others inductionHypothesis =>
      cases selection with
      | field field =>
          by_cases plain : isPlain name field = true
          · rw [ensure_cons_of_plain plain, addedTo_within_cons schema parent plain,
              addedTo_self, List.append_nil, plainSelections_cons_of_plain plain,
              firstPlain?_cons_field, if_pos plain]
            simp
          · rw [ensure_cons_of_not_plain plain, addedTo_cons_self, inductionHypothesis,
              plainSelections_cons_of_not_plain plain, firstPlain?_cons_field, if_neg plain]
      | spread spread =>
          exact (congrArg (placed ∈ ·) (addedTo_cons_self schema parent _ _ _)).to_iff.trans
            inductionHypothesis
      | inline inline =>
          exact (congrArg (placed ∈ ·) (addedTo_cons_self schema parent _ _ _)).to_iff.trans
            inductionHypothesis

/-- Ensuring two fields adds what ensuring either of them adds. -/
theorem mem_addedTo_ensure_ensure_iff
    (different : other ≠ name) :
    placed ∈ addedTo schema parent selections
        (ensure other (within another) (ensure name (within change) selections)) ↔
      placed ∈ addedTo schema parent selections (ensure name (within change) selections) ∨
      placed ∈ addedTo schema parent selections (ensure other (within another) selections) := by
  induction selections with
  | nil =>
      have first : ensure name (within change) [] =
          [.field (FieldOf.plain name (change []))] := rfl
      have second : ensure other (within another) [] =
          [.field (FieldOf.plain other (another []))] := rfl
      have notOther : ¬ isPlain other (FieldOf.plain name (change [])) = true := by
        simpa [isPlain, FieldOf.plain] using Ne.symm different
      rw [first, ensure_cons_of_not_plain notOther, second]
      simp [addedTo_cons]
  | cons selection others inductionHypothesis =>
      cases selection with
      | field field =>
          by_cases plain : isPlain name field = true
          · have notOther : ¬ isPlain other field = true := by
              rw [isPlain_of_ne plain different]
              exact Bool.false_ne_true
            have notWithin : ¬ isPlain other (within change field) = true := notOther
            rw [ensure_cons_of_plain plain, ensure_cons_of_not_plain notWithin,
              ensure_cons_of_not_plain notOther, addedTo_within_cons schema parent plain,
              addedTo_within_cons schema parent plain, addedTo_cons_self, addedTo_self,
              List.append_nil, List.mem_append]
          · rw [ensure_cons_of_not_plain plain, addedTo_cons_self]
            by_cases plainOther : isPlain other field = true
            · rw [ensure_cons_of_plain plainOther, ensure_cons_of_plain plainOther,
                addedTo_within_cons schema parent plainOther,
                addedTo_within_cons schema parent plainOther, addedTo_self, List.append_nil,
                List.mem_append, or_comm]
            · rw [ensure_cons_of_not_plain plainOther, ensure_cons_of_not_plain plainOther,
                addedTo_cons_self, addedTo_cons_self]
              exact inductionHypothesis
      | spread spread =>
          have step : ∀ later, addedTo schema parent (.spread spread :: others)
              (.spread spread :: later) = addedTo schema parent others later :=
            fun later => addedTo_cons_self schema parent _ _ later
          simpa only [ensure, step] using inductionHypothesis
      | inline inline =>
          have step : ∀ later, addedTo schema parent (.inline inline :: others)
              (.inline inline :: later) = addedTo schema parent others later :=
            fun later => addedTo_cons_self schema parent _ _ later
          simpa only [ensure, step] using inductionHypothesis

end Ensure

/-! ## What selecting fields adds -/

section Select

variable {name : Name} {names : List Name} {selections : List Selection}

theorem firstPlain?_append (name : Name) (selections later : List Selection) :
    firstPlain? name (selections ++ later) =
      (firstPlain? name selections).or (firstPlain? name later) := by
  induction selections with
  | nil => rfl
  | cons selection others inductionHypothesis =>
      cases selection with
      | field field =>
          rw [List.cons_append, firstPlain?_cons_field, firstPlain?_cons_field,
            inductionHypothesis]
          split <;> rfl
      | spread spread => exact inductionHypothesis
      | inline inline => exact inductionHypothesis

theorem firstPlain?_plain (name other : Name) :
    firstPlain? name [.field (FieldOf.plain other [])] =
      if other = name then some (FieldOf.plain other []) else none := by
  rw [firstPlain?_cons_field, isPlain_plain]
  simp [firstPlain?]

theorem select_of_lacking
    (lacks : firstPlain? name selections = none) :
    select name selections = selections ++ [.field (FieldOf.plain name [])] := by
  have grown := ensure_within name id selections
  rw [alterFirst_id, lacking, lacks] at grown
  exact grown

/-- Selecting fields adds those that were lacking behind what there was. -/
theorem exists_missing (names : List Name) (selections : List Selection) :
    ∃ missing : List Name,
      (∀ name, name ∈ missing ↔ name ∈ names ∧ firstPlain? name selections = none) ∧
      selectAll names selections =
        selections ++ missing.map fun name => .field (FieldOf.plain name []) := by
  induction names generalizing selections with
  | nil => exact ⟨[], by simp, (List.append_nil selections).symm⟩
  | cons first others inductionHypothesis =>
      obtain ⟨missing, mem_missing, whole⟩ := inductionHypothesis (select first selections)
      rw [selectAll, List.foldl_cons, ← selectAll, whole]
      cases present : firstPlain? first selections with
      | some field =>
          have there : (firstPlain? first selections).isSome := by rw [present]; rfl
          rw [select_eq_self there] at mem_missing ⊢
          refine ⟨missing, fun name => ?_, rfl⟩
          rw [mem_missing, List.mem_cons]
          have notFirst : firstPlain? name selections = none → name ≠ first := by
            rintro lacks rfl
            rw [present] at lacks
            cases lacks
          tauto
      | none =>
          rw [select_of_lacking present] at mem_missing ⊢
          refine ⟨first :: missing, fun name => ?_, by simp⟩
          rw [List.mem_cons, mem_missing, List.mem_cons, firstPlain?_append, firstPlain?_plain,
            Option.or_eq_none_iff]
          by_cases same : name = first
          · simp [same, present]
          · simp [same, Ne.symm same]

theorem addedTo_nil_leaves (schema : Schema) (parent : Option Name) (names : List Name) :
    addedTo schema parent [] (names.map fun name => .field (FieldOf.plain name [])) =
      names.map (PlacedField.mk parent) := by
  induction names with
  | nil => exact addedTo_nil schema parent []
  | cons name others inductionHypothesis =>
      have here := addedTo_plain schema parent name []
      rw [addedTo_cons, addedTo_nil, addedTo_nil, List.append_nil] at here
      rw [List.map_cons, addedTo_cons, here, List.tail_nil, inductionHypothesis]
      rfl

theorem mem_addedTo_selectAll_iff (schema : Schema) (parent : Option Name)
    {placed : PlacedField} :
    placed ∈ addedTo schema parent selections (selectAll names selections) ↔
      placed.type = parent ∧ placed.name ∈ names ∧ firstPlain? placed.name selections = none := by
  obtain ⟨missing, mem_missing, whole⟩ := exists_missing names selections
  rw [whole, addedTo_append_self, addedTo_nil_leaves, List.mem_map]
  constructor
  · rintro ⟨name, isMissing, rfl⟩
    exact ⟨rfl, (mem_missing name).mp isMissing⟩
  · rintro ⟨rfl, isMissing⟩
    exact ⟨placed.name, (mem_missing placed.name).mpr isMissing, rfl⟩

end Select

/-! ## Connections -/

/-- Which fields augmentation needs in the selections of a connection and below: the type that a
selection set is made on, the set, and the name of a field. A set that is not there counts as
empty. -/
inductive Needs (schema : Schema) (config : IdentityConfig) (connection : Name)
    (selections : List Selection) : Option Name → List Selection → Name → Prop where
  | edges :
      Needs schema config connection selections (some connection) selections edges
  | pageInfo :
      Needs schema config connection selections (some connection) selections pageInfo
  | cursor :
      Needs schema config connection selections
        (schema.fieldCore? connection Augmentation.edges)
        (plainSelections Augmentation.edges selections) cursor
  | node {type : Name}
      (answered : (ConnectionShape.ofType schema connection).node = some type) :
      Needs schema config connection selections
        (schema.fieldCore? connection Augmentation.edges)
        (plainSelections Augmentation.edges selections) Name.node
  | key {type name : Name}
      (answered : (ConnectionShape.ofType schema connection).node = some type)
      (isKey : name ∈ declaredKeys schema config type) :
      Needs schema config connection selections (some type)
        (plainSelections Name.node (plainSelections Augmentation.edges selections)) name
  | typename {type : Name}
      (answered : (ConnectionShape.ofType schema connection).node = some type) :
      Needs schema config connection selections (some type)
        (plainSelections Name.node (plainSelections Augmentation.edges selections)) Name.typename
  | page {type name : Name}
      (answered : (ConnectionShape.ofType schema connection).pageInfo = some type)
      (isTold : name ∈ pageInfoFields)
      (declared : schema.hasField type name = true) :
      Needs schema config connection selections (some type)
        (plainSelections Augmentation.pageInfo selections) name

section Parts

variable {schema : Schema} {config : IdentityConfig} {connection : Name}
  {selections : List Selection} {placed : PlacedField}

theorem augmentNode_eq_selectAll (schema : Schema) (config : IdentityConfig) (type : Name)
    (selections : List Selection) :
    augmentNode schema config type selections =
      selectAll (declaredKeys schema config type ++ [Name.typename]) selections := by
  rw [augmentNode, selectAll, selectAll, List.foldl_append]
  rfl

/-- What augmentation does to the page info, if the connection has any. -/
theorem augmentConnection_eq (schema : Schema) (config : IdentityConfig) (shape : ConnectionShape)
    (selections : List Selection) :
    augmentConnection schema config shape selections =
      ensure pageInfo
        (within ((shape.pageInfo.map (augmentPageInfo schema ·)).getD id))
        (ensure edges (within (augmentEdges schema config shape.node)) selections) := by
  rw [augmentConnection]
  cases shape.pageInfo <;> rfl

theorem augmentEdges_none (schema : Schema) (config : IdentityConfig)
    (selections : List Selection) :
    augmentEdges schema config none selections = ensure cursor (within id) selections :=
  rfl

theorem augmentEdges_some (schema : Schema) (config : IdentityConfig) (type : Name)
    (selections : List Selection) :
    augmentEdges schema config (some type) selections =
      ensure cursor (within id)
        (ensure Name.node (within (augmentNode schema config type)) selections) :=
  rfl

theorem mem_addedTo_augmentNode_iff (type : Name) :
    placed ∈ addedTo schema (some type) selections
        (augmentNode schema config type selections) ↔
      placed.type = some type ∧
        (placed.name ∈ declaredKeys schema config type ∨ placed.name = Name.typename) ∧
        firstPlain? placed.name selections = none := by
  rw [augmentNode_eq_selectAll, mem_addedTo_selectAll_iff, List.mem_append, List.mem_singleton]

theorem mem_addedTo_cursor_iff {parent : Option Name} :
    placed ∈ addedTo schema parent selections (ensure cursor (within id) selections) ↔
      placed = ⟨parent, cursor⟩ ∧ firstPlain? cursor selections = none := by
  rw [mem_addedTo_ensure_iff]
  simp

/-- What is added to the selections of edges and to those of their node. -/
theorem mem_addedTo_augmentEdges_iff {parent nodeType : Option Name} :
    placed ∈ addedTo schema parent selections
        (augmentEdges schema config nodeType selections) ↔
      (placed = ⟨parent, cursor⟩ ∧ firstPlain? cursor selections = none) ∨
      ∃ type, nodeType = some type ∧
        ((placed = ⟨parent, Name.node⟩ ∧ firstPlain? Name.node selections = none) ∨
          placed ∈ addedTo schema (MarkedField.childType schema parent Name.node)
            (plainSelections Name.node selections)
            (augmentNode schema config type (plainSelections Name.node selections))) := by
  cases nodeType with
  | none =>
      rw [augmentEdges_none, mem_addedTo_cursor_iff]
      simp
  | some type =>
      rw [augmentEdges_some, mem_addedTo_ensure_ensure_iff schema parent (by decide),
        mem_addedTo_cursor_iff, mem_addedTo_ensure_iff, or_comm]
      simp

/-- The type below a field of a known type. -/
theorem childType_some (schema : Schema) (type field : Name) :
    MarkedField.childType schema (some type) field = schema.fieldCore? type field :=
  rfl

theorem childType_edges_node {type : Name}
    (answered : (ConnectionShape.ofType schema connection).node = some type) :
    MarkedField.childType schema (schema.fieldCore? connection edges) Name.node = some type :=
  answered

theorem mem_addedTo_pageInfo_iff :
    placed ∈ addedTo schema (MarkedField.childType schema (some connection) pageInfo) selections
        (((ConnectionShape.ofType schema connection).pageInfo.map
          (augmentPageInfo schema ·)).getD id selections) ↔
      ∃ type, (ConnectionShape.ofType schema connection).pageInfo = some type ∧
        placed.type = some type ∧ placed.name ∈ pageInfoFields ∧
        schema.hasField type placed.name = true ∧ firstPlain? placed.name selections = none := by
  have sameType : MarkedField.childType schema (some connection) pageInfo =
      (ConnectionShape.ofType schema connection).pageInfo := rfl
  rw [sameType]
  cases (ConnectionShape.ofType schema connection).pageInfo with
  | none => simp
  | some type =>
      have whole : ((some type).map (augmentPageInfo schema ·)).getD id selections =
          selectAll (pageInfoFields.filter fun name => schema.hasField type name) selections := rfl
      rw [whole, mem_addedTo_selectAll_iff]
      simp [and_assoc]

/-- Augmentation adds just the fields that are needed in a selection set and not selected there
plainly. -/
theorem mem_addedTo_augmentConnection_iff :
    placed ∈ addedTo schema (some connection) selections
        (augmentConnection schema config (ConnectionShape.ofType schema connection) selections) ↔
      ∃ set, Needs schema config connection selections placed.type set placed.name ∧
        firstPlain? placed.name set = none := by
  rw [augmentConnection_eq, mem_addedTo_ensure_ensure_iff schema _ (by decide),
    mem_addedTo_ensure_iff, mem_addedTo_ensure_iff, mem_addedTo_augmentEdges_iff,
    mem_addedTo_pageInfo_iff]
  constructor
  · rintro ((⟨rfl, lacks⟩ | ⟨rfl, lacks⟩ | ⟨type, answered, ⟨rfl, lacks⟩ | inNode⟩) |
      ⟨rfl, lacks⟩ | ⟨type, answered, sameType, isTold, declared, lacks⟩)
    · exact ⟨_, .edges, lacks⟩
    · exact ⟨_, .cursor, lacks⟩
    · exact ⟨_, .node answered, lacks⟩
    · rw [childType_some, childType_edges_node answered, mem_addedTo_augmentNode_iff] at inNode
      obtain ⟨sameType, isKey | isTypename, lacks⟩ := inNode
      · exact ⟨_, sameType ▸ .key answered isKey, lacks⟩
      · exact ⟨_, sameType ▸ isTypename ▸ .typename answered, lacks⟩
    · exact ⟨_, .pageInfo, lacks⟩
    · exact ⟨_, sameType ▸ .page answered isTold declared, lacks⟩
  · obtain ⟨type, name⟩ := placed
    rintro ⟨set, needs, lacks⟩
    cases needs with
    | edges => exact .inl (.inl ⟨rfl, lacks⟩)
    | pageInfo => exact .inr (.inl ⟨rfl, lacks⟩)
    | cursor => exact .inl (.inr (.inl ⟨rfl, lacks⟩))
    | node answered => exact .inl (.inr (.inr ⟨_, answered, .inl ⟨rfl, lacks⟩⟩))
    | key answered isKey =>
        refine .inl (.inr (.inr ⟨_, answered, .inr ?_⟩))
        rw [childType_some, childType_edges_node answered, mem_addedTo_augmentNode_iff]
        exact ⟨rfl, .inl isKey, lacks⟩
    | typename answered =>
        refine .inl (.inr (.inr ⟨_, answered, .inr ?_⟩))
        rw [childType_some, childType_edges_node answered, mem_addedTo_augmentNode_iff]
        exact ⟨rfl, .inr rfl, lacks⟩
    | page answered isTold declared =>
        exact .inr (.inr ⟨_, answered, rfl, isTold, declared, lacks⟩)

end Parts

end Augmentation

/-! ## Processed documents -/

namespace PagingMode

/-- A field that pages by cursors answers a connection. -/
theorem exists_connection_of_detect {schema : Schema} {field : PaginatedField} {mode : PagingMode}
    (isDetected : detect schema field = .ok mode)
    (isCursor : mode.isCursor = true) :
    ∃ connection, schema.fieldCore? field.parentType field.name = some connection ∧
      (field.name ≠ Name.typename →
        (ConnectionShape.ofType schema connection).isConnection = true) := by
  unfold detect at isDetected
  cases declared : schema.field? field.parentType field.name with
  | none => simp [declared] at isDetected
  | some definition =>
      simp only [declared, Pipeline.bind_eq_ok_iff, fitting_eq_ok_iff] at isDetected
      obtain ⟨_, _, connects, _, rfl⟩ := isDetected
      rw [isCursor, Bool.true_and, Bool.not_eq_false'] at connects
      by_cases same : field.name = Name.typename
      · refine ⟨Name.stringType, ?_, fun different => absurd same different⟩
        rw [Schema.fieldCore?, Schema.fieldType?, if_pos (congrArg Name.text same)]
        rfl
      · have notText : field.name.text ≠ Name.typename.text :=
          fun sameText => same (Name.eq_of_text_eq sameText)
        refine ⟨definition.type.inner, ?_, fun _ => connects⟩
        rw [Schema.fieldCore?, Schema.fieldType?, if_neg notText, declared]
        rfl

end PagingMode

namespace Passage

variable {schema : Schema} {config : IdentityConfig} {document : Document}

/-- The paginated field before and after it was augmented. -/
theorem exists_augmented (passage : Passage schema config document)
    (isCursor : passage.mode.isCursor = true) :
    ∃ target paged connection,
      document.field? passage.field.indices = some target ∧
      passage.outcome.field? passage.field.indices = some paged ∧
      schema.fieldCore? passage.field.parentType passage.field.name = some connection ∧
      (passage.field.name ≠ Name.typename →
        (ConnectionShape.ofType schema connection).isConnection = true) ∧
      paged.selections =
        Augmentation.augmentConnection schema config (ConnectionShape.ofType schema connection)
          target.selections := by
  obtain ⟨rewriting⟩ := passage.exists_rewriting
  obtain ⟨connection, answers, connects⟩ :=
    PagingMode.exists_connection_of_detect passage.isDetected isCursor
  obtain ⟨_, _, _, _, sameField⟩ := PaginatedField.ofMarked_eq_ok_iff.mp rewriting.read
  have called : rewriting.found.field.name = passage.field.name := by rw [sameField]
  have stands := fieldAt?_of_editFieldAt? rewriting.target.1 rewriting.edited
  refine ⟨rewriting.found.field, rewriting.edit rewriting.found.field, connection, ?_, ?_,
    answers, connects, ?_⟩
  · rw [Document.field?, Document.selections?, Document.primary?, rewriting.parts,
      field_indices rewriting.read]
    exact rewriting.target.1
  · rw [Document.field?, Document.selections?, Document.primary?, rewriting.definitions_outcome,
      field_indices rewriting.read]
    exact (congrArg (fieldAt? · _) (Pipeline.selections_rewritten ..)).trans stands
  · rw [Rewriting.edit, Pipeline.pagingEdit_eq, augmentSelections, isCursor, called, answers]

end Passage

/-- The paginated field of a document that pages by cursors, before and after. -/
theorem Pipeline.exists_augmented_of_process {schema : Schema} {config : IdentityConfig}
    {document : Document} {processed : Processed} {field : PaginatedField} {mode : PagingMode}
    (result : process schema config document = .ok (some processed))
    (isFound : PaginatedField.find schema document = .ok (some field))
    (isDetected : PagingMode.detect schema field = .ok mode)
    (isCursor : mode.isCursor = true) :
    ∃ target paged connection,
      document.field? field.indices = some target ∧
      processed.document.field? field.indices = some paged ∧
      schema.fieldCore? field.parentType field.name = some connection ∧
      (field.name ≠ Name.typename →
        (ConnectionShape.ofType schema connection).isConnection = true) ∧
      paged.selections =
        Augmentation.augmentConnection schema config (ConnectionShape.ofType schema connection)
          target.selections := by
  obtain ⟨passage, rfl⟩ := process_eq_ok_some_iff.mp result
  have sameField := passage.isFound
  rw [isFound, Except.ok.injEq, Option.some.injEq] at sameField
  subst sameField
  have sameMode := passage.isDetected
  rw [isDetected, Except.ok.injEq] at sameMode
  subst sameMode
  exact passage.exists_augmented isCursor

/-! ## Feeds -/

namespace Feed

def users : Name := ⟨"users", by decide⟩
def logs : Name := ⟨"logs", by decide⟩
def connectionType : Name := ⟨"Connection", by decide⟩
def edgeType : Name := ⟨"Edge", by decide⟩
def infoType : Name := ⟨"PageInfo", by decide⟩

theorem isNameText_hasNextPage : isNameText "hasNextPage" = true := by
  decide

def hasNextPage : Name := ⟨"hasNextPage", isNameText_hasNextPage⟩

def feedField (name : Name) (arguments : List PagingArgument) : FieldDefinition :=
  ⟨name, arguments.map fun argument => ⟨argument.name, argument.fallbackType, none⟩,
    .named connectionType false⟩

/-- A schema with users that are listed forward and logs that are listed backward, with the given
fields of an edge. -/
def schema (ofEdge : List FieldDefinition) : Schema where
  types := Schema.BuiltIn.types ++
    [⟨Sample.queryType, .object []
        [feedField users PagingArgument.forward, feedField logs PagingArgument.backward]⟩,
      ⟨connectionType, .object []
        [⟨Augmentation.edges, [], .list (.named edgeType false) false⟩,
          ⟨Augmentation.pageInfo, [], .named infoType false⟩]⟩,
      ⟨edgeType, .object [] ofEdge⟩,
      ⟨infoType, .object [] [⟨hasNextPage, [], .named Name.stringType false⟩]⟩]
  roots := [⟨.query, Sample.queryType⟩]
  directives := []

/-- What an edge has where it can be passed as a cursor. -/
def cursorField : FieldDefinition :=
  ⟨Augmentation.cursor, [], .named Name.stringType true⟩

def nodeField : FieldDefinition :=
  ⟨Name.node, [], .named Name.stringType false⟩

/-- A page info that answers under the given alias. -/
def infoSelection (aliasName : Option Name) : Selection :=
  .field ⟨aliasName, Augmentation.pageInfo, [], [], [.field (FieldOf.plain hasNextPage [])], none⟩

/-- An operation that pages through the users with some selections. -/
def usersOperation (selections : List Selection) : Document :=
  Document.ofDefinition "sample.graphql"
    (.operation ⟨.query, some users, [], [],
      [.field ⟨none, users, [⟨PagingArgument.first.name, .int "10"⟩], [Sample.mark], selections,
        none⟩], none⟩)

end Feed

end QueryPaging
