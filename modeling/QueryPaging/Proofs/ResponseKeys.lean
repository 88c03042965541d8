import QueryPaging.Proofs.Additions

/-!
# Response keys that are taken

The fields of one selection set that answer under the same response key have to be the same field.
Augmentation looks for the fields that it needs by name and without an alias, so it may add one
although another field answers under its name already.

- `AnswersApart`: fields of a selection set that share a response key share their name.
- `Augmentation.hasOrigin_of_encloses`: where the fields of an augmented selection set come from.
- `Augmentation.answersApart_augmentConnection_iff`: when augmentation keeps fields apart.
- `Pipeline.answersApart_iff_of_process`: the same for a processed document.
-/

namespace QueryPaging

/-- The response keys of the fields of a selection set, each with the name of its field. -/
def answersOf (selections : List Selection) : List (Name × Name) :=
  selections.filterMap fun
    | .field body => some (body.responseKey, body.name)
    | _ => none

/-- Fields that share a response key share their name. -/
def AnswersApart (selections : List Selection) : Prop :=
  ∀ left ∈ answersOf selections, ∀ right ∈ answersOf selections,
    left.1 = right.1 → left.2 = right.2

/-- No field of another name answers under the given one. -/
def IsFree (name : Name) (selections : List Selection) : Prop :=
  ∀ pair ∈ answersOf selections, pair.1 = name → pair.2 = name

/-- The selection sets of some selections: their own, and those of fields and inline fragments at
any depth. -/
inductive Encloses : List Selection → List Selection → Prop where
  | own (selections : List Selection) :
      Encloses selections selections
  | inner {selections set : List Selection} {selection : Selection}
      (member : selection ∈ selections)
      (inside : Encloses selection.children set) :
      Encloses selections set

namespace Encloses

theorem trans {selections middle set : List Selection}
    (first : Encloses selections middle)
    (second : Encloses middle set) :
    Encloses selections set := by
  induction first with
  | own => exact second
  | inner member _ inductionHypothesis => exact .inner member (inductionHypothesis second)

theorem eq_nil {set : List Selection}
    (inside : Encloses [] set) :
    set = [] := by
  cases inside with
  | own => rfl
  | inner member => cases member

end Encloses

namespace Augmentation

/-! ## The answers of a selection set -/

section Answers

variable {name other : Name} {names : List Name} {change another : List Selection → List Selection}
  {selections : List Selection} {field : Field} {pair : Name × Name}

theorem mem_answersOf_cons_field :
    pair ∈ answersOf (.field field :: selections) ↔
      pair = (field.responseKey, field.name) ∨ pair ∈ answersOf selections :=
  List.mem_cons

theorem responseKey_of_isPlain
    (plain : isPlain name field = true) :
    (field.responseKey, field.name) = (name, name) := by
  rw [isPlain, Bool.and_eq_true, Option.isNone_iff_eq_none, beq_iff_eq] at plain
  rw [FieldOf.responseKey, plain.1, plain.2]
  rfl

/-- A field that is ensured answers under its name, and all others answer as before. -/
theorem mem_answersOf_ensure_iff :
    pair ∈ answersOf (ensure name (within change) selections) ↔
      pair ∈ answersOf selections ∨ pair = (name, name) := by
  induction selections with
  | nil => exact List.mem_singleton.trans (by simp [answersOf]; rfl)
  | cons selection others inductionHypothesis =>
      cases selection with
      | field field =>
          by_cases plain : isPlain name field = true
          · have same := responseKey_of_isPlain plain
            have kept : ((within change field).responseKey, (within change field).name) =
                (field.responseKey, field.name) := rfl
            rw [ensure_cons_of_plain plain, mem_answersOf_cons_field, mem_answersOf_cons_field,
              kept, same]
            tauto
          · rw [ensure_cons_of_not_plain plain, mem_answersOf_cons_field,
              mem_answersOf_cons_field, inductionHypothesis, or_assoc]
      | spread spread => exact inductionHypothesis
      | inline inline => exact inductionHypothesis

theorem mem_answersOf_selectAll_iff :
    pair ∈ answersOf (selectAll names selections) ↔
      pair ∈ answersOf selections ∨ ∃ name ∈ names, pair = (name, name) := by
  induction names generalizing selections with
  | nil => simp [selectAll]
  | cons first others inductionHypothesis =>
      have ensured : select first selections = ensure first (within id) selections := rfl
      rw [selectAll, List.foldl_cons, ← selectAll, inductionHypothesis, ensured,
        mem_answersOf_ensure_iff, or_assoc]
      simp

end Answers

/-! ## The selection sets of augmented selections -/

/-- A selection set is one of some selections, or it is empty. -/
def Holds (selections set : List Selection) : Prop :=
  Encloses selections set ∨ set = []

section Sets

variable {name other : Name} {names : List Name} {change another : List Selection → List Selection}
  {selections set : List Selection}

theorem mem_of_firstPlain? {field : Field}
    (present : firstPlain? name selections = some field) :
    .field field ∈ selections := by
  induction selections with
  | nil => cases present
  | cons selection others inductionHypothesis =>
      cases selection with
      | field first =>
          rw [firstPlain?_cons_field] at present
          split at present
          · cases present
            exact List.mem_cons_self
          · exact List.mem_cons_of_mem _ (inductionHypothesis present)
      | spread spread => exact List.mem_cons_of_mem _ (inductionHypothesis present)
      | inline inline => exact List.mem_cons_of_mem _ (inductionHypothesis present)

theorem holds_self (selections : List Selection) :
    Holds selections selections :=
  .inl (.own selections)

theorem Holds.trans {middle : List Selection}
    (first : Holds selections middle)
    (second : Holds middle set) :
    Holds selections set := by
  rcases second with inside | empty
  · rcases first with outside | rfl
    · exact .inl (outside.trans inside)
    · exact .inr inside.eq_nil
  · exact .inr empty

theorem holds_plainSelections (name : Name) (selections : List Selection) :
    Holds selections (plainSelections name selections) := by
  rw [plainSelections]
  cases present : firstPlain? name selections with
  | none => exact .inr rfl
  | some field => exact .inl (.inner (mem_of_firstPlain? present) (.own _))

/-- A selection that is there once a field is ensured was there, or it leads to the selections of
the field. -/
theorem children_of_mem_ensure {selection : Selection}
    (member : selection ∈ ensure name (within change) selections) :
    selection ∈ selections ∨ selection.children = change (plainSelections name selections) := by
  induction selections with
  | nil =>
      rw [ensure, List.mem_singleton] at member
      rw [member]
      exact .inr rfl
  | cons first others inductionHypothesis =>
      cases first with
      | field field =>
          by_cases plain : isPlain name field = true
          · rw [ensure_cons_of_plain plain] at member
            rw [plainSelections_cons_of_plain plain]
            rcases List.mem_cons.mp member with rfl | later
            · exact .inr rfl
            · exact .inl (List.mem_cons_of_mem _ later)
          · rw [ensure_cons_of_not_plain plain] at member
            rw [plainSelections_cons_of_not_plain plain]
            rcases List.mem_cons.mp member with rfl | later
            · exact .inl List.mem_cons_self
            · exact (inductionHypothesis later).imp_left (List.mem_cons_of_mem _)
      | spread spread =>
          rcases List.mem_cons.mp member with rfl | later
          · exact .inl List.mem_cons_self
          · exact (inductionHypothesis later).imp_left (List.mem_cons_of_mem _)
      | inline inline =>
          rcases List.mem_cons.mp member with rfl | later
          · exact .inl List.mem_cons_self
          · exact (inductionHypothesis later).imp_left (List.mem_cons_of_mem _)

/-- The selection sets there are once a field is ensured. -/
theorem holds_of_ensure
    (inside : Encloses (ensure name (within change) selections) set) :
    set = ensure name (within change) selections ∨ Holds selections set ∨
      Encloses (change (plainSelections name selections)) set := by
  cases inside with
  | own => exact .inl rfl
  | inner member inside =>
      rcases children_of_mem_ensure member with before | changed
      · exact .inr (.inl (.inl (.inner before inside)))
      · rw [changed] at inside
        exact .inr (.inr inside)

theorem plainSelections_ensure_self (name : Name) (change : List Selection → List Selection)
    (selections : List Selection) :
    plainSelections name (ensure name (within change) selections) =
      change (plainSelections name selections) := by
  rw [plainSelections, firstPlain?_ensure_self name selections (keepsKey_within change),
    plainSelections]
  cases firstPlain? name selections <;> rfl

theorem plainSelections_ensure_of_ne (change : List Selection → List Selection)
    (selections : List Selection)
    (different : other ≠ name) :
    plainSelections other (ensure name (within change) selections) =
      plainSelections other selections := by
  rw [plainSelections, firstPlain?_ensure_of_ne selections (keepsKey_within change) different,
    plainSelections]

/-- The selections of a plain field are among the selection sets. -/
theorem encloses_plainSelections
    (present : (firstPlain? name selections).isSome) :
    Encloses selections (plainSelections name selections) := by
  obtain ⟨field, found⟩ := Option.isSome_iff_exists.mp present
  rw [plainSelections, found]
  exact .inner (mem_of_firstPlain? found) (.own _)

theorem encloses_ensure (name : Name) (change : List Selection → List Selection)
    (selections : List Selection) :
    Encloses (ensure name (within change) selections)
      (change (plainSelections name selections)) := by
  rw [← plainSelections_ensure_self name change selections]
  apply encloses_plainSelections
  rw [firstPlain?_ensure_self name selections (keepsKey_within change)]
  rfl

/-- The selections of a field that was ensured stay among the selection sets when another field is
ensured. -/
theorem encloses_ensure_ensure (change another : List Selection → List Selection)
    (selections : List Selection)
    (different : other ≠ name) :
    Encloses (ensure name (within another) (ensure other (within change) selections))
      (change (plainSelections other selections)) := by
  rw [← plainSelections_ensure_self other change selections,
    ← plainSelections_ensure_of_ne another (ensure other (within change) selections) different]
  apply encloses_plainSelections
  rw [firstPlain?_ensure_of_ne _ (keepsKey_within another) different,
    firstPlain?_ensure_self other selections (keepsKey_within change)]
  rfl

/-- The selection sets there are once fields are selected. -/
theorem holds_of_selectAll
    (inside : Encloses (selectAll names selections) set) :
    set = selectAll names selections ∨ Holds selections set := by
  cases inside with
  | own => exact .inl rfl
  | inner member inside =>
      obtain ⟨missing, _, whole⟩ := exists_missing names selections
      rw [whole] at member
      rcases List.mem_append.mp member with before | added
      · exact .inr (.inl (.inner before inside))
      · obtain ⟨name, _, rfl⟩ := List.mem_map.mp added
        exact .inr (.inr inside.eq_nil)

theorem holds_of_select
    (inside : Encloses (ensure name (within id) selections) set) :
    set = ensure name (within id) selections ∨ Holds selections set := by
  have whole : Encloses (selectAll [name] selections) set := inside
  exact holds_of_selectAll whole

end Sets

/-! ## Where answers come from -/

section Origins

variable {schema : Schema} {config : IdentityConfig} {connection : Name}
  {selections set : List Selection}

/-- Whatever a selection set answers is answered by one of the authored selections, its origin, or
answers under its own name and is needed in the origin. -/
def HasOrigin (schema : Schema) (config : IdentityConfig) (connection : Name)
    (selections set : List Selection) : Prop :=
  ∃ origin, Holds selections origin ∧
    ∀ pair ∈ answersOf set, pair ∈ answersOf origin ∨
      pair.1 = pair.2 ∧ ∃ type, Needs schema config connection selections type origin pair.1

theorem hasOrigin_of_holds
    (held : Holds selections set) :
    HasOrigin schema config connection selections set :=
  ⟨set, held, fun _ member => .inl member⟩

theorem hasOrigin_node {type : Name}
    (answered : (ConnectionShape.ofType schema connection).node = some type)
    (inside : Encloses (augmentNode schema config type
      (plainSelections Name.node (plainSelections edges selections))) set) :
    HasOrigin schema config connection selections set := by
  have held : Holds selections (plainSelections Name.node (plainSelections edges selections)) :=
    (holds_plainSelections edges selections).trans (holds_plainSelections Name.node _)
  rw [augmentNode_eq_selectAll] at inside
  rcases holds_of_selectAll inside with rfl | before
  · refine ⟨_, held, fun pair member => ?_⟩
    rcases mem_answersOf_selectAll_iff.mp member with before | ⟨name, wanted, rfl⟩
    · exact .inl before
    · refine .inr ⟨rfl, some type, ?_⟩
      rcases List.mem_append.mp wanted with isKey | isTypename
      · exact .key answered isKey
      · rw [List.mem_singleton.mp isTypename]
        exact .typename answered
  · exact hasOrigin_of_holds (held.trans before)

theorem hasOrigin_edges
    (inside : Encloses (augmentEdges schema config (ConnectionShape.ofType schema connection).node
      (plainSelections edges selections)) set) :
    HasOrigin schema config connection selections set := by
  have held := holds_plainSelections edges selections
  cases answered : (ConnectionShape.ofType schema connection).node with
  | none =>
      rw [answered, augmentEdges_none] at inside
      rcases holds_of_select inside with rfl | before
      · refine ⟨_, held, fun pair member => ?_⟩
        rcases mem_answersOf_ensure_iff.mp member with before | rfl
        · exact .inl before
        · exact .inr ⟨rfl, _, .cursor⟩
      · exact hasOrigin_of_holds (held.trans before)
  | some type =>
      rw [answered, augmentEdges_some] at inside
      rcases holds_of_select inside with rfl | withNode | empty
      · refine ⟨_, held, fun pair member => ?_⟩
        rw [mem_answersOf_ensure_iff, mem_answersOf_ensure_iff] at member
        rcases member with (before | rfl) | rfl
        · exact .inl before
        · exact .inr ⟨rfl, _, .node answered⟩
        · exact .inr ⟨rfl, _, .cursor⟩
      · rcases holds_of_ensure withNode with rfl | before | inNode
        · refine ⟨_, held, fun pair member => ?_⟩
          rcases mem_answersOf_ensure_iff.mp member with before | rfl
          · exact .inl before
          · exact .inr ⟨rfl, _, .node answered⟩
        · exact hasOrigin_of_holds (held.trans before)
        · exact hasOrigin_node answered inNode
      · exact hasOrigin_of_holds (.inr empty)

theorem hasOrigin_pageInfo
    (inside : Encloses (((ConnectionShape.ofType schema connection).pageInfo.map
      (augmentPageInfo schema ·)).getD id (plainSelections pageInfo selections)) set) :
    HasOrigin schema config connection selections set := by
  have held := holds_plainSelections pageInfo selections
  cases answered : (ConnectionShape.ofType schema connection).pageInfo with
  | none =>
      rw [answered] at inside
      exact hasOrigin_of_holds (held.trans (.inl inside))
  | some type =>
      rw [answered] at inside
      rcases holds_of_selectAll inside with rfl | before
      · refine ⟨_, held, fun pair member => ?_⟩
        rcases mem_answersOf_selectAll_iff.mp member with before | ⟨name, wanted, rfl⟩
        · exact .inl before
        · obtain ⟨isTold, declared⟩ := List.mem_filter.mp wanted
          exact .inr ⟨rfl, some type, .page answered isTold declared⟩
      · exact hasOrigin_of_holds (held.trans before)

/-- Every augmented selection set has an origin. -/
theorem hasOrigin_of_encloses
    (inside : Encloses (augmentConnection schema config (ConnectionShape.ofType schema connection)
      selections) set) :
    HasOrigin schema config connection selections set := by
  rw [augmentConnection_eq] at inside
  rcases holds_of_ensure inside with rfl | (withEdges | empty) | inPageInfo
  · refine ⟨selections, holds_self selections, fun pair member => ?_⟩
    rw [mem_answersOf_ensure_iff, mem_answersOf_ensure_iff] at member
    rcases member with (before | rfl) | rfl
    · exact .inl before
    · exact .inr ⟨rfl, _, .edges⟩
    · exact .inr ⟨rfl, _, .pageInfo⟩
  · rcases holds_of_ensure withEdges with rfl | before | inEdges
    · refine ⟨selections, holds_self selections, fun pair member => ?_⟩
      rcases mem_answersOf_ensure_iff.mp member with before | rfl
      · exact .inl before
      · exact .inr ⟨rfl, _, .edges⟩
    · exact hasOrigin_of_holds before
    · exact hasOrigin_edges inEdges
  · exact hasOrigin_of_holds (.inr empty)
  · rw [plainSelections_ensure_of_ne _ _ (by decide)] at inPageInfo
    exact hasOrigin_pageInfo inPageInfo

end Origins

/-! ## Where needed fields are answered -/

section Carries

variable {schema : Schema} {config : IdentityConfig} {connection name other : Name}
  {names : List Name} {change : List Selection → List Selection}
  {selections set enlarged : List Selection}

/-- A selection set answers a name beside all that another one answers. -/
def Carries (enlarged set : List Selection) (name : Name) : Prop :=
  (∀ pair ∈ answersOf set, pair ∈ answersOf enlarged) ∧ (name, name) ∈ answersOf enlarged

theorem carries_ensure :
    Carries (ensure name (within change) set) set name :=
  ⟨fun _ member => mem_answersOf_ensure_iff.mpr (.inl member),
    mem_answersOf_ensure_iff.mpr (.inr rfl)⟩

theorem Carries.ensure
    (carries : Carries enlarged set name) :
    Carries (ensure other (within change) enlarged) set name :=
  ⟨fun pair member => mem_answersOf_ensure_iff.mpr (.inl (carries.1 pair member)),
    mem_answersOf_ensure_iff.mpr (.inl carries.2)⟩

theorem Carries.of_ensure
    (carries : Carries enlarged (Augmentation.ensure other (within change) set) name) :
    Carries enlarged set name :=
  ⟨fun pair member => carries.1 pair (mem_answersOf_ensure_iff.mpr (.inl member)), carries.2⟩

theorem carries_selectAll
    (wanted : name ∈ names) :
    Carries (selectAll names set) set name :=
  ⟨fun _ member => mem_answersOf_selectAll_iff.mpr (.inl member),
    mem_answersOf_selectAll_iff.mpr (.inr ⟨name, wanted, rfl⟩)⟩

theorem carries_augmentEdges (nodeType : Option Name) :
    Carries (augmentEdges schema config nodeType set) set cursor := by
  cases nodeType with
  | none =>
      rw [augmentEdges_none]
      exact carries_ensure
  | some type =>
      rw [augmentEdges_some]
      exact carries_ensure.of_ensure

/-- The selections of edges and of their node stay where they are when the page info is ensured. -/
theorem encloses_augmentEdges (schema : Schema) (config : IdentityConfig) (shape : ConnectionShape)
    (selections : List Selection) :
    Encloses (augmentConnection schema config shape selections)
      (augmentEdges schema config shape.node (plainSelections edges selections)) := by
  rw [augmentConnection_eq]
  exact encloses_ensure_ensure _ _ selections (by decide)

theorem encloses_augmentNode {shape : ConnectionShape} {type : Name}
    (answered : shape.node = some type) :
    Encloses (augmentConnection schema config shape selections)
      (augmentNode schema config type
        (plainSelections Name.node (plainSelections edges selections))) := by
  refine (encloses_augmentEdges schema config shape selections).trans ?_
  rw [answered, augmentEdges_some]
  exact encloses_ensure_ensure _ _ _ (by decide)

theorem encloses_augmentPageInfo {shape : ConnectionShape} {type : Name}
    (answered : shape.pageInfo = some type) :
    Encloses (augmentConnection schema config shape selections)
      (augmentPageInfo schema type (plainSelections pageInfo selections)) := by
  have inside := encloses_ensure pageInfo (augmentPageInfo schema type)
    (ensure edges (within (augmentEdges schema config shape.node)) selections)
  rw [plainSelections_ensure_of_ne _ _ (by decide)] at inside
  rw [augmentConnection_eq, answered]
  exact inside

/-- Where a field is needed in a selection set, some augmented set has the field beside all that the
former has. -/
theorem exists_carries_of_needs {type : Option Name}
    (needs : Needs schema config connection selections type set name) :
    ∃ enlarged, Encloses (augmentConnection schema config
        (ConnectionShape.ofType schema connection) selections) enlarged ∧
      Carries enlarged set name := by
  cases needs with
  | edges =>
      refine ⟨_, .own _, ?_⟩
      rw [augmentConnection_eq]
      exact carries_ensure.ensure
  | pageInfo =>
      refine ⟨_, .own _, ?_⟩
      rw [augmentConnection_eq]
      exact carries_ensure.of_ensure
  | cursor => exact ⟨_, encloses_augmentEdges _ _ _ _, carries_augmentEdges _⟩
  | node answered =>
      refine ⟨_, encloses_augmentEdges _ _ _ _, ?_⟩
      rw [answered, augmentEdges_some]
      exact carries_ensure.ensure
  | key answered isKey =>
      refine ⟨_, encloses_augmentNode answered, ?_⟩
      rw [augmentNode_eq_selectAll]
      exact carries_selectAll (List.mem_append_left _ isKey)
  | typename answered =>
      refine ⟨_, encloses_augmentNode answered, ?_⟩
      rw [augmentNode_eq_selectAll]
      exact carries_selectAll (List.mem_append_right _ (List.mem_singleton_self _))
  | page answered isTold declared =>
      exact ⟨_, encloses_augmentPageInfo answered,
        carries_selectAll (List.mem_filter.mpr ⟨isTold, declared⟩)⟩

end Carries

/-! ## Connections -/

section Connections

variable {schema : Schema} {config : IdentityConfig} {connection : Name}
  {selections : List Selection}

/-- Augmentation keeps fields apart just where the names of all fields that it needs are free in the
selection sets where it needs them. -/
theorem answersApart_augmentConnection_iff
    (apart : ∀ set, Encloses selections set → AnswersApart set) :
    (∀ set, Encloses (augmentConnection schema config (ConnectionShape.ofType schema connection)
        selections) set → AnswersApart set) ↔
      ∀ type set name, Needs schema config connection selections type set name →
        IsFree name set := by
  constructor
  · intro staysApart type set name needs pair member answersName
    obtain ⟨enlarged, inside, kept, there⟩ := exists_carries_of_needs needs
    exact staysApart enlarged inside pair (kept pair member) (name, name) there answersName
  · intro free set inside left isLeft right isRight sameKey
    obtain ⟨origin, held, comesFrom⟩ := hasOrigin_of_encloses inside
    have apartBefore : AnswersApart origin := by
      rcases held with before | rfl
      · exact apart origin before
      · intro left member
        cases member
    rcases comesFrom left isLeft with leftBefore | ⟨leftSame, type, leftNeeded⟩
    · rcases comesFrom right isRight with rightBefore | ⟨rightSame, type, rightNeeded⟩
      · exact apartBefore left leftBefore right rightBefore sameKey
      · rw [← rightSame]
        exact free type origin right.1 rightNeeded left leftBefore sameKey
    · rcases comesFrom right isRight with rightBefore | ⟨rightSame, _, _⟩
      · rw [← leftSame]
        exact (free type origin left.1 leftNeeded right rightBefore sameKey.symm).symm
      · rw [← leftSame, ← rightSame, sameKey]

end Connections

end Augmentation

/-! ## Processed documents -/

namespace Pipeline

open Augmentation

/-- If fields that share a response key share their name in all selection sets below the paginated
field, then this is so after augmentation just where the names of the fields that augmentation needs
are free in the selection sets where it needs them. -/
theorem answersApart_iff_of_process {schema : Schema} {config : IdentityConfig}
    {document : Document} {processed : Processed} {field : PaginatedField} {mode : PagingMode}
    (result : process schema config document = .ok (some processed))
    (isFound : PaginatedField.find schema document = .ok (some field))
    (isDetected : PagingMode.detect schema field = .ok mode)
    (isCursor : mode.isCursor = true) :
    ∃ target paged connection,
      document.field? field.indices = some target ∧
      processed.document.field? field.indices = some paged ∧
      schema.fieldCore? field.parentType field.name = some connection ∧
      ((∀ set, Encloses target.selections set → AnswersApart set) →
        ((∀ set, Encloses paged.selections set → AnswersApart set) ↔
          ∀ type set name, Needs schema config connection target.selections type set name →
            IsFree name set)) := by
  obtain ⟨target, paged, connection, stands, stays, answers, _, whole⟩ :=
    exists_augmented_of_process result isFound isDetected isCursor
  refine ⟨target, paged, connection, stands, stays, answers, ?_⟩
  rw [whole]
  exact answersApart_augmentConnection_iff

end Pipeline

namespace Feed

/-- A field that stands alone shares its response key with no other. -/
theorem answersApart_alone {body : Field}
    (apart : ∀ set, Encloses body.selections set → AnswersApart set) :
    ∀ set, Encloses [.field body] set → AnswersApart set := by
  intro set inside
  cases inside with
  | own =>
      have only : answersOf [.field body] = [(body.responseKey, body.name)] := rfl
      intro left isLeft right isRight _
      rw [only, List.mem_singleton] at isLeft isRight
      rw [isLeft, isRight]
  | inner member inside =>
      rw [List.mem_singleton] at member
      subst member
      exact apart set inside

theorem answersApart_infoSelection (aliasName : Option Name) :
    ∀ set, Encloses [infoSelection aliasName] set → AnswersApart set := by
  refine answersApart_alone (answersApart_alone fun set inside => ?_)
  rw [inside.eq_nil]
  intro left member
  cases member

end Feed

namespace Pipeline

open Augmentation

/-- A page info that answers under its own name leaves room for all that is added. -/
theorem answersApart_iff_of_process_users :
    let feed := Feed.schema [Feed.cursorField, Feed.nodeField]
    let document := Feed.usersOperation [Feed.infoSelection none]
    ∃ processed field,
      process feed .standard document = .ok (some processed) ∧
      PaginatedField.find feed document = .ok (some field) ∧
      PagingMode.detect feed field = .ok .cursorForward ∧
      PagingMode.cursorForward.isCursor = true ∧
      ∃ target paged, document.field? field.indices = some target ∧
        processed.document.field? field.indices = some paged ∧
        (∀ set, Encloses target.selections set → AnswersApart set) ∧
        ((∀ set, Encloses paged.selections set → AnswersApart set) ↔
          ∀ type set name,
            Needs feed .standard Feed.connectionType target.selections type set name →
              IsFree name set) := by
  intro feed document
  refine ⟨_, _, rfl, rfl, rfl, rfl, ?_⟩
  obtain ⟨target, paged, connection, stands, stays, answers, iff⟩ :=
    @answersApart_iff_of_process feed .standard document _ _ _ rfl rfl rfl rfl
  cases answers
  cases stands
  exact ⟨_, paged, rfl, stays, Feed.answersApart_infoSelection none,
    iff (Feed.answersApart_infoSelection none)⟩

/-- A page info that answers as the edges is joined by edges. -/
theorem not_forall_answersApart :
    ¬ ∀ (schema : Schema) (config : IdentityConfig) (document : Document) (processed : Processed)
      (field : PaginatedField) (mode : PagingMode) (target paged : Field),
      process schema config document = .ok (some processed) →
      PaginatedField.find schema document = .ok (some field) →
      PagingMode.detect schema field = .ok mode →
      mode.isCursor = true →
      document.field? field.indices = some target →
      processed.document.field? field.indices = some paged →
      (∀ set, Encloses target.selections set → AnswersApart set) →
        ∀ set, Encloses paged.selections set → AnswersApart set := by
  intro always
  have apart := always (Feed.schema [Feed.cursorField, Feed.nodeField]) .standard
    (Feed.usersOperation [Feed.infoSelection (some edges)]) _ _ _ _ _ rfl rfl rfl rfl rfl rfl
    (Feed.answersApart_infoSelection (some edges)) _ (.own _)
  have same := apart (edges, pageInfo) (by decide) (edges, edges) (by decide) rfl
  exact absurd same (by decide)

end Pipeline

end QueryPaging
