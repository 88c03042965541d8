import QueryPaging.Proofs.Augmenting

/-!
# What augmentation adds

Augmentation adds plain fields to the ends of at most four selection sets: of the paginated field, of
its first plain `edges`, of the first plain `node` in these, and of its first plain `pageInfo`.
Everything that was selected stays where it was.

- `Growth.apply`: selections with such fields added.
- `exists_augmentSelections_eq`: augmentation comes to no more than that.
-/

namespace QueryPaging

namespace Augmentation

/-- The selections with those of the first plain field of a name changed, if there is one. -/
def alterFirst (name : Name) (change : List Selection → List Selection) :
    List Selection → List Selection
  | [] => []
  | .field field :: others =>
      if isPlain name field then .field (within change field) :: others
      else .field field :: alterFirst name change others
  | other :: others => other :: alterFirst name change others

/-- Fields that are added, each a plain one of a name with some selections. -/
abbrev Added := List (Name × List Selection)

def Added.selections (added : Added) : List Selection :=
  added.map fun entry => .field (FieldOf.plain entry.1 entry.2)

/-- The field of a name that selections lack. -/
def lacking (name : Name) (change : List Selection → List Selection)
    (selections : List Selection) : Added :=
  match firstPlain? name selections with
  | some _ => []
  | none => [(name, change [])]

section AlterFirst

variable {name other : Name} {change : List Selection → List Selection}
  {selections later : List Selection}

/-- A field that has to be there is changed where it is and added where it is not. -/
theorem ensure_within (name : Name) (change : List Selection → List Selection)
    (selections : List Selection) :
    ensure name (within change) selections =
      alterFirst name change selections ++ (lacking name change selections).selections := by
  induction selections with
  | nil => rfl
  | cons selection others inductionHypothesis =>
      cases selection with
      | field field =>
          rw [ensure, alterFirst, lacking, firstPlain?]
          cases plain : isPlain name field with
          | true => simp [Added.selections]
          | false => simpa [lacking] using inductionHypothesis
      | spread spread => exact congrArg (_ :: ·) inductionHypothesis
      | inline inline => exact congrArg (_ :: ·) inductionHypothesis

theorem alterFirst_id (name : Name) (selections : List Selection) :
    alterFirst name id selections = selections := by
  induction selections with
  | nil => rfl
  | cons selection others inductionHypothesis =>
      cases selection with
      | field field =>
          rw [alterFirst, inductionHypothesis]
          split <;> rfl
      | spread spread => exact congrArg (_ :: ·) inductionHypothesis
      | inline inline => exact congrArg (_ :: ·) inductionHypothesis

/-- Only what is done to the selections of the first plain field counts. -/
theorem alterFirst_congr {another : List Selection → List Selection}
    (same : ∀ field, firstPlain? name selections = some field →
      change field.selections = another field.selections) :
    alterFirst name change selections = alterFirst name another selections := by
  induction selections with
  | nil => rfl
  | cons selection others inductionHypothesis =>
      cases selection with
      | field field =>
          rw [alterFirst, alterFirst]
          by_cases plain : isPlain name field = true
          · have here := same field (by rw [firstPlain?, if_pos plain])
            rw [if_pos plain, if_pos plain, within, within, here]
          · rw [if_neg plain, if_neg plain, inductionHypothesis]
            intro later found
            exact same later (by rw [firstPlain?, if_neg plain, found])
      | spread spread => exact congrArg (_ :: ·) (inductionHypothesis same)
      | inline inline => exact congrArg (_ :: ·) (inductionHypothesis same)

theorem alterFirst_eq_self
    (unchanged : ∀ inner, change inner = inner) :
    alterFirst name change selections = selections := by
  have isId : change = id := funext unchanged
  rw [isId, alterFirst_id]

theorem alterFirst_of_absent
    (absent : firstPlain? name selections = none) :
    alterFirst name change selections = selections := by
  have unchanged : alterFirst name change selections = alterFirst name id selections := by
    apply alterFirst_congr
    intro field found
    rw [absent] at found
    cases found
  rw [unchanged, alterFirst_id]

theorem alterFirst_append
    (absent : firstPlain? name later = none) :
    alterFirst name change (selections ++ later) = alterFirst name change selections ++ later := by
  induction selections with
  | nil => exact alterFirst_of_absent absent
  | cons selection others inductionHypothesis =>
      cases selection with
      | field field =>
          rw [List.cons_append, alterFirst, alterFirst, inductionHypothesis]
          split <;> rfl
      | spread spread => exact congrArg (_ :: ·) inductionHypothesis
      | inline inline => exact congrArg (_ :: ·) inductionHypothesis

theorem firstPlain?_lacking_of_ne
    (different : other ≠ name) :
    firstPlain? other (lacking name change selections).selections = none := by
  unfold lacking
  split
  · rfl
  · have isOther : isPlain other (FieldOf.plain name (change [])) = false := by
      simpa [isPlain, FieldOf.plain] using Ne.symm different
    rw [Added.selections, List.map_singleton, firstPlain?, isOther]
    rfl

/-- What is added below the first plain field may depend on that field, but there is just one. -/
theorem exists_alterFirst_eq {Extra : Type} [Inhabited Extra]
    {grow : Extra → List Selection → List Selection}
    (name : Name) (selections : List Selection)
    (grows : ∀ inner, ∃ extra, change inner = grow extra inner) :
    ∃ extra, alterFirst name change selections = alterFirst name (grow extra) selections := by
  cases found : firstPlain? name selections with
  | none => exact ⟨default, by rw [alterFirst_of_absent found, alterFirst_of_absent found]⟩
  | some field =>
      obtain ⟨extra, grown⟩ := grows field.selections
      refine ⟨extra, alterFirst_congr fun other isOther => ?_⟩
      rw [found, Option.some.injEq] at isOther
      rw [← isOther, grown]

end AlterFirst

/-! ## Selected fields -/

@[simp]
theorem Added.selections_nil :
    Added.selections [] = [] :=
  rfl

@[simp]
theorem Added.selections_append (first others : Added) :
    Added.selections (first ++ others) = first.selections ++ others.selections :=
  List.map_append

theorem exists_select_eq (name : Name) (selections : List Selection) :
    ∃ added : Added, select name selections = selections ++ added.selections := by
  refine ⟨lacking name id selections, ?_⟩
  have grown := ensure_within name id selections
  rwa [alterFirst_id] at grown

theorem exists_selectAll_eq (names : List Name) (selections : List Selection) :
    ∃ added : Added, selectAll names selections = selections ++ added.selections := by
  induction names generalizing selections with
  | nil => exact ⟨[], (List.append_nil selections).symm⟩
  | cons first others inductionHypothesis =>
      obtain ⟨here, grown⟩ := exists_select_eq first selections
      obtain ⟨behind, whole⟩ := inductionHypothesis (select first selections)
      refine ⟨here ++ behind, ?_⟩
      rw [selectAll, List.foldl_cons, ← selectAll, whole, grown, Added.selections_append,
        List.append_assoc]

/-! ## Connections -/

/-- What is added to the selections of a connection, of its edges, of their node and of its page
info. -/
structure Growth where
  own : Added
  edges : Added
  node : Added
  pageInfo : Added

/-- The selections of edges with what is added to them and to those of their node. -/
def growEdges (own node : Added) (selections : List Selection) : List Selection :=
  alterFirst Name.node (· ++ node.selections) selections ++ own.selections

/-- The selections of a connection with all that is added. -/
def Growth.apply (growth : Growth) (selections : List Selection) : List Selection :=
  alterFirst Augmentation.pageInfo (· ++ growth.pageInfo.selections)
      (alterFirst Augmentation.edges (growEdges growth.edges growth.node) selections)
    ++ growth.own.selections

theorem growEdges_nil (selections : List Selection) :
    growEdges [] [] selections = selections := by
  rw [growEdges, Added.selections_nil, List.append_nil]
  exact alterFirst_eq_self List.append_nil

theorem Growth.apply_nothing (selections : List Selection) :
    (Growth.mk [] [] [] []).apply selections = selections := by
  have sameEdges : alterFirst Augmentation.edges (growEdges [] []) selections = selections :=
    alterFirst_eq_self growEdges_nil
  rw [apply, sameEdges, Added.selections_nil, List.append_nil]
  exact alterFirst_eq_self List.append_nil

section Parts

variable (schema : Schema) (config : IdentityConfig)

theorem exists_augmentNode_eq (type : Name) (selections : List Selection) :
    ∃ added : Added, augmentNode schema config type selections = selections ++ added.selections := by
  obtain ⟨keys, grown⟩ := exists_selectAll_eq (declaredKeys schema config type) selections
  obtain ⟨typename, whole⟩ :=
    exists_select_eq Name.typename (selectAll (declaredKeys schema config type) selections)
  refine ⟨keys ++ typename, ?_⟩
  rw [augmentNode, whole, grown, Added.selections_append, List.append_assoc]

theorem exists_augmentEdges_eq (nodeType : Option Name) (selections : List Selection) :
    ∃ added : Added × Added,
      augmentEdges schema config nodeType selections = growEdges added.1 added.2 selections := by
  unfold augmentEdges growEdges
  cases nodeType with
  | none =>
      obtain ⟨added, whole⟩ := exists_select_eq cursor selections
      refine ⟨(added, []), ?_⟩
      rw [whole, Added.selections_nil, alterFirst_eq_self List.append_nil]
  | some type =>
      obtain ⟨node, inNode⟩ := exists_alterFirst_eq Name.node selections
        (exists_augmentNode_eq schema config type)
      obtain ⟨added, whole⟩ := exists_select_eq cursor
        (ensure Name.node (within (augmentNode schema config type)) selections)
      refine ⟨(lacking Name.node (augmentNode schema config type) selections ++ added, node), ?_⟩
      simp only at whole ⊢
      rw [whole, ensure_within, inNode, Added.selections_append, List.append_assoc]

/-- Augmentation adds to the page info, if it does not select it. -/
theorem exists_pageInfo_eq (shape : ConnectionShape) (selections : List Selection) :
    ∃ change, (∀ inner, ∃ added : Added, change inner = inner ++ added.selections) ∧
      augmentConnection schema config shape selections =
        ensure pageInfo (within change)
          (ensure edges (within (augmentEdges schema config shape.node)) selections) := by
  unfold augmentConnection
  cases shape.pageInfo with
  | none => exact ⟨id, fun inner => ⟨[], (List.append_nil inner).symm⟩, rfl⟩
  | some type => exact ⟨augmentPageInfo schema type, fun inner => exists_selectAll_eq _ inner, rfl⟩

theorem exists_augmentConnection_eq (shape : ConnectionShape) (selections : List Selection) :
    ∃ growth : Growth,
      augmentConnection schema config shape selections = growth.apply selections := by
  obtain ⟨change, grows, whole⟩ := exists_pageInfo_eq schema config shape selections
  obtain ⟨⟨inEdges, inNode⟩, grownEdges⟩ := exists_alterFirst_eq edges selections
    (exists_augmentEdges_eq schema config shape.node)
  obtain ⟨inPageInfo, grownPageInfo⟩ := exists_alterFirst_eq pageInfo
    (alterFirst edges (growEdges inEdges inNode) selections) grows
  -- Edges that are added come before the page info, so they have to be none themselves.
  let ownEdges := lacking edges (augmentEdges schema config shape.node) selections
  have apart : firstPlain? pageInfo ownEdges.selections = none :=
    firstPlain?_lacking_of_ne (by decide)
  refine ⟨⟨ownEdges ++ lacking pageInfo change
    (alterFirst edges (growEdges inEdges inNode) selections ++ ownEdges.selections),
    inEdges, inNode, inPageInfo⟩, ?_⟩
  rw [whole, ensure_within edges, grownEdges, ensure_within pageInfo, alterFirst_append apart,
    grownPageInfo, Growth.apply, Added.selections_append, List.append_assoc]

end Parts

end Augmentation

/-- Augmentation adds to the selections of the paginated field, and does nothing else to them. -/
theorem exists_augmentSelections_eq (schema : Schema) (config : IdentityConfig)
    (parentType : String) (mode : PagingMode) (name : Name) (selections : List Selection) :
    ∃ growth : Augmentation.Growth,
      augmentSelections schema config parentType mode name selections =
        growth.apply selections := by
  unfold augmentSelections
  split
  · exact Augmentation.exists_augmentConnection_eq schema config _ selections
  · exact ⟨⟨[], [], [], []⟩, (Augmentation.Growth.apply_nothing selections).symm⟩

end QueryPaging
