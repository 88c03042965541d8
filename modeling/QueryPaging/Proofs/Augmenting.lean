import QueryPaging.Augmentation
import QueryPaging.Proofs.Marks

/-!
# Augmenting twice

What augmentation adds is there afterwards, so augmenting once more changes nothing. Augmentation
marks no field, and of the field itself it changes the selections alone.
-/

namespace QueryPaging

namespace Augmentation

/-- The first field of some selections that is selected by a name and without an alias. -/
def firstPlain? (name : Name) : List Selection → Option Field
  | [] => none
  | .field field :: others =>
      if isPlain name field then some field else firstPlain? name others
  | _ :: others => firstPlain? name others

/-- What an edit has to leave alone so that the same fields are plain. -/
def KeepsKey (edit : Field → Field) : Prop :=
  ∀ field, (edit field).aliasName = field.aliasName ∧ (edit field).name = field.name

theorem keepsKey_id :
    KeepsKey id :=
  fun _ => ⟨rfl, rfl⟩

theorem keepsKey_within (edit : List Selection → List Selection) :
    KeepsKey (within edit) :=
  fun _ => ⟨rfl, rfl⟩

/-! ## Ensuring a field -/

section Ensure

variable {name other : Name} {edit : Field → Field} {selections : List Selection}

theorem isPlain_edit (keeps : KeepsKey edit) (field : Field) :
    isPlain name (edit field) = isPlain name field := by
  rw [isPlain, isPlain, (keeps field).1, (keeps field).2]

theorem isPlain_plain :
    isPlain other (FieldOf.plain name []) = (name == other) := by
  simp [isPlain, FieldOf.plain]

theorem isPlain_of_ne {field : Field}
    (plain : isPlain name field = true)
    (different : other ≠ name) :
    isPlain other field = false := by
  simp only [isPlain, Bool.and_eq_true, beq_iff_eq] at plain ⊢
  rw [plain.2, Bool.and_eq_false_iff]
  exact Or.inr (beq_eq_false_iff_ne.mpr (Ne.symm different))

theorem firstPlain?_ensure_self (name : Name) (selections : List Selection)
    (keeps : KeepsKey edit) :
    firstPlain? name (ensure name edit selections) =
      some (edit ((firstPlain? name selections).getD (FieldOf.plain name []))) := by
  induction selections with
  | nil => simp [ensure, firstPlain?, isPlain_edit keeps, isPlain_plain]
  | cons selection others inductionHypothesis =>
      cases selection with
      | field field =>
          cases plain : isPlain name field with
          | true => simp [ensure, firstPlain?, isPlain_edit keeps, plain]
          | false => simpa [ensure, firstPlain?, plain] using inductionHypothesis
      | spread spread => exact inductionHypothesis
      | inline inline => exact inductionHypothesis

theorem firstPlain?_ensure_of_ne (selections : List Selection)
    (keeps : KeepsKey edit)
    (different : other ≠ name) :
    firstPlain? other (ensure name edit selections) = firstPlain? other selections := by
  have added : (name == other) = false := beq_eq_false_iff_ne.mpr (Ne.symm different)
  induction selections with
  | nil => simp [ensure, firstPlain?, isPlain_edit keeps, isPlain_plain, added]
  | cons selection others inductionHypothesis =>
      cases selection with
      | field field =>
          cases plain : isPlain name field with
          | true =>
              simp [ensure, firstPlain?, plain, isPlain_edit keeps, isPlain_of_ne plain different]
          | false => simp [ensure, firstPlain?, plain, inductionHypothesis]
      | spread spread => exact inductionHypothesis
      | inline inline => exact inductionHypothesis

/-- Ensuring a field that is there as it has to be changes nothing. -/
theorem ensure_eq_self {field : Field}
    (present : firstPlain? name selections = some field)
    (unchanged : edit field = field) :
    ensure name edit selections = selections := by
  induction selections with
  | nil => cases present
  | cons selection others inductionHypothesis =>
      cases selection with
      | field first =>
          rw [firstPlain?] at present
          rw [ensure]
          split at present
          · next plain =>
              rw [if_pos plain, Option.some.inj present, unchanged]
          · next different => rw [if_neg different, inductionHypothesis present]
      | spread spread => exact congrArg (_ :: ·) (inductionHypothesis present)
      | inline inline => exact congrArg (_ :: ·) (inductionHypothesis present)

end Ensure

/-! ## Selecting fields -/

section Select

variable {name other : Name} {names : List Name} {selections : List Selection} {field : Field}

theorem firstPlain?_select_self (name : Name) (selections : List Selection) :
    (firstPlain? name (select name selections)).isSome := by
  rw [select, firstPlain?_ensure_self _ _ keepsKey_id]
  rfl

/-- A field that is there stays there when fields are selected. -/
theorem firstPlain?_select (name : Name)
    (present : firstPlain? other selections = some field) :
    firstPlain? other (select name selections) = some field := by
  by_cases same : other = name
  · subst same
    rw [select, firstPlain?_ensure_self _ _ keepsKey_id, present]
    rfl
  · rw [select, firstPlain?_ensure_of_ne _ keepsKey_id same, present]

theorem select_eq_self (present : (firstPlain? name selections).isSome) :
    select name selections = selections := by
  obtain ⟨field, found⟩ := Option.isSome_iff_exists.mp present
  exact ensure_eq_self found rfl

theorem firstPlain?_selectAll (present : firstPlain? other selections = some field) :
    firstPlain? other (selectAll names selections) = some field := by
  induction names generalizing selections with
  | nil => exact present
  | cons first others inductionHypothesis => exact inductionHypothesis (firstPlain?_select _ present)

/-- All fields that were selected are there. -/
theorem firstPlain?_selectAll_of_mem (selections : List Selection)
    (member : name ∈ names) :
    (firstPlain? name (selectAll names selections)).isSome := by
  induction names generalizing selections with
  | nil => simp at member
  | cons first others inductionHypothesis =>
      rcases List.mem_cons.mp member with rfl | later
      · obtain ⟨field, found⟩ := Option.isSome_iff_exists.mp
          (firstPlain?_select_self name selections)
        rw [selectAll, List.foldl_cons]
        exact Option.isSome_iff_exists.mpr ⟨field, firstPlain?_selectAll found⟩
      · exact inductionHypothesis _ later

theorem selectAll_eq_self
    (present : ∀ name ∈ names, (firstPlain? name selections).isSome) :
    selectAll names selections = selections := by
  induction names with
  | nil => rfl
  | cons first others inductionHypothesis =>
      rw [selectAll, List.foldl_cons, select_eq_self (present first (by simp))]
      exact inductionHypothesis fun name member => present name (List.mem_cons_of_mem first member)

@[simp]
theorem selectAll_selectAll (names : List Name) (selections : List Selection) :
    selectAll names (selectAll names selections) = selectAll names selections :=
  selectAll_eq_self fun _ member => firstPlain?_selectAll_of_mem _ member

end Select

/-! ## The parts of a connection -/

section Parts

variable (schema : Schema) (config : IdentityConfig)

@[simp]
theorem augmentNode_augmentNode (type : Name) (selections : List Selection) :
    augmentNode schema config type (augmentNode schema config type selections) =
      augmentNode schema config type selections := by
  have keysThere : ∀ name ∈ declaredKeys schema config type,
      (firstPlain? name (augmentNode schema config type selections)).isSome := by
    intro name member
    obtain ⟨field, found⟩ := Option.isSome_iff_exists.mp
      (firstPlain?_selectAll_of_mem selections member)
    exact Option.isSome_iff_exists.mpr ⟨field, firstPlain?_select _ found⟩
  have typeThere :
      (firstPlain? Name.typename (augmentNode schema config type selections)).isSome :=
    firstPlain?_select_self ..
  conv => lhs; rw [augmentNode, selectAll_eq_self keysThere, select_eq_self typeThere]

@[simp]
theorem augmentEdges_augmentEdges (nodeType : Option Name) (selections : List Selection) :
    augmentEdges schema config nodeType (augmentEdges schema config nodeType selections) =
      augmentEdges schema config nodeType selections := by
  have cursorThere :
      (firstPlain? cursor (augmentEdges schema config nodeType selections)).isSome :=
    firstPlain?_select_self ..
  cases nodeType with
  | none => exact select_eq_self cursorThere
  | some type =>
      have nodeThere := firstPlain?_select cursor
        (firstPlain?_ensure_self Name.node selections
          (keepsKey_within (augmentNode schema config type)))
      have unchanged : ensure Name.node (within (augmentNode schema config type))
          (augmentEdges schema config (some type) selections) =
            augmentEdges schema config (some type) selections :=
        ensure_eq_self nodeThere (by simp [within])
      conv => lhs; rw [augmentEdges]; simp only [unchanged]; rw [select_eq_self cursorThere]

@[simp]
theorem augmentPageInfo_augmentPageInfo (type : Name) (selections : List Selection) :
    augmentPageInfo schema type (augmentPageInfo schema type selections) =
      augmentPageInfo schema type selections :=
  selectAll_selectAll _ selections

@[simp]
theorem augmentConnection_augmentConnection (shape : ConnectionShape)
    (selections : List Selection) :
    augmentConnection schema config shape (augmentConnection schema config shape selections) =
      augmentConnection schema config shape selections := by
  have edgesFirst := firstPlain?_ensure_self edges selections
    (keepsKey_within (augmentEdges schema config shape.node))
  have apart : edges ≠ pageInfo := by decide
  cases declared : shape.pageInfo with
  | none =>
      have augmented : augmentConnection schema config shape selections =
          select pageInfo
            (ensure edges (within (augmentEdges schema config shape.node)) selections) := by
        simp only [augmentConnection, declared]
      have edgesThere := firstPlain?_select pageInfo edgesFirst
      have pageInfoThere := firstPlain?_select_self pageInfo
        (ensure edges (within (augmentEdges schema config shape.node)) selections)
      rw [← augmented] at edgesThere pageInfoThere
      conv => lhs; simp only [augmentConnection, declared]
      rw [← augmented, ensure_eq_self edgesThere (by simp [within]),
        select_eq_self pageInfoThere]
  | some type =>
      have augmented : augmentConnection schema config shape selections =
          ensure pageInfo (within (augmentPageInfo schema type))
            (ensure edges (within (augmentEdges schema config shape.node)) selections) := by
        simp only [augmentConnection, declared]
      have edgesThere := (firstPlain?_ensure_of_ne _
        (keepsKey_within (augmentPageInfo schema type)) apart).trans edgesFirst
      have pageInfoThere := firstPlain?_ensure_self pageInfo
        (ensure edges (within (augmentEdges schema config shape.node)) selections)
        (keepsKey_within (augmentPageInfo schema type))
      rw [← augmented] at edgesThere pageInfoThere
      conv => lhs; simp only [augmentConnection, declared]
      rw [← augmented, ensure_eq_self edgesThere (by simp [within]),
        ensure_eq_self pageInfoThere (by simp [within])]

end Parts

/-! ## Marks -/

section Marks

open MarkedField (Unmarked unmarked_nil unmarked_cons_iff)

/-- An edit that marks neither a field nor anything below it. -/
def AddsNoMark (edit : Field → Field) : Prop :=
  ∀ field, (edit field).directives = field.directives ∧
    (Unmarked field.selections → Unmarked (edit field).selections)

theorem addsNoMark_id :
    AddsNoMark id :=
  fun _ => ⟨rfl, id⟩

theorem addsNoMark_within {edit : List Selection → List Selection}
    (clean : ∀ selections, Unmarked selections → Unmarked (edit selections)) :
    AddsNoMark (within edit) :=
  fun field => ⟨rfl, clean field.selections⟩

theorem unmarked_ensure (name : Name) {edit : Field → Field} {selections : List Selection}
    (clean : AddsNoMark edit)
    (unmarked : Unmarked selections) :
    Unmarked (ensure name edit selections) := by
  induction selections with
  | nil =>
      rw [ensure, unmarked_cons_iff]
      refine ⟨?_, (clean _).2 unmarked_nil, unmarked_nil⟩
      rintro field same
      cases same
      rw [(clean _).1]
      rfl
  | cons selection others inductionHypothesis =>
      obtain ⟨here, below, behind⟩ := unmarked_cons_iff.mp unmarked
      cases selection with
      | field field =>
          rw [ensure]
          split
          · refine unmarked_cons_iff.mpr ⟨?_, (clean field).2 below, behind⟩
            rintro edited same
            cases same
            rw [(clean field).1]
            exact here field rfl
          · exact unmarked_cons_iff.mpr ⟨here, below, inductionHypothesis behind⟩
      | spread spread => exact unmarked_cons_iff.mpr ⟨here, below, inductionHypothesis behind⟩
      | inline inline => exact unmarked_cons_iff.mpr ⟨here, below, inductionHypothesis behind⟩

theorem unmarked_selectAll {names : List Name} {selections : List Selection}
    (unmarked : Unmarked selections) :
    Unmarked (selectAll names selections) := by
  induction names generalizing selections with
  | nil => exact unmarked
  | cons first others inductionHypothesis =>
      exact inductionHypothesis (unmarked_ensure _ addsNoMark_id unmarked)

variable (schema : Schema) (config : IdentityConfig)

theorem unmarked_augmentNode (type : Name) (selections : List Selection)
    (unmarked : Unmarked selections) :
    Unmarked (augmentNode schema config type selections) :=
  unmarked_ensure _ addsNoMark_id (unmarked_selectAll unmarked)

theorem unmarked_augmentEdges (nodeType : Option Name) (selections : List Selection)
    (unmarked : Unmarked selections) :
    Unmarked (augmentEdges schema config nodeType selections) := by
  refine unmarked_ensure _ addsNoMark_id ?_
  cases nodeType with
  | none => exact unmarked
  | some type =>
      exact unmarked_ensure _ (addsNoMark_within (unmarked_augmentNode schema config type)) unmarked

theorem unmarked_augmentConnection (shape : ConnectionShape) (selections : List Selection)
    (unmarked : Unmarked selections) :
    Unmarked (augmentConnection schema config shape selections) := by
  have edgesUnmarked :=
    unmarked_ensure edges
      (addsNoMark_within (unmarked_augmentEdges schema config shape.node)) unmarked
  unfold augmentConnection
  cases shape.pageInfo with
  | none => exact unmarked_ensure _ addsNoMark_id edgesUnmarked
  | some type =>
      exact unmarked_ensure _
        (addsNoMark_within fun _ => unmarked_selectAll) edgesUnmarked

end Marks

end Augmentation

/-! ## The paginated field -/

section Augment

variable (schema : Schema) (config : IdentityConfig) (parentType : String) (mode : PagingMode)

/-- What augmentation makes of the selections of a field called `name`. -/
def augmentSelections (name : Name) (selections : List Selection) : List Selection :=
  match mode.isCursor, schema.fieldCore? parentType name with
  | true, some type =>
      Augmentation.augmentConnection schema config (ConnectionShape.ofType schema type) selections
  | _, _ => selections

theorem augment_eq_within (field : Field) :
    augment schema config parentType mode field =
      Augmentation.within (augmentSelections schema config parentType mode field.name) field := by
  unfold augment augmentSelections
  cases mode.isCursor with
  | false => rfl
  | true => cases schema.fieldCore? parentType field.name <;> rfl

@[simp]
theorem augmentSelections_augmentSelections (name : Name) (selections : List Selection) :
    augmentSelections schema config parentType mode name
        (augmentSelections schema config parentType mode name selections) =
      augmentSelections schema config parentType mode name selections := by
  unfold augmentSelections
  cases mode.isCursor with
  | false => rfl
  | true =>
      cases schema.fieldCore? parentType name with
      | none => rfl
      | some type => exact Augmentation.augmentConnection_augmentConnection schema config _ _

theorem unmarked_augmentSelections {name : Name} {selections : List Selection}
    (unmarked : MarkedField.Unmarked selections) :
    MarkedField.Unmarked
      (augmentSelections schema config parentType mode name selections) := by
  unfold augmentSelections
  split
  · exact Augmentation.unmarked_augmentConnection schema config _ _ unmarked
  · exact unmarked

end Augment

end QueryPaging
