import QueryPaging.Proofs.Annotations

/-!
# What stripping leaves

A definition is made up of the directives at each of its places and of all the rest. Stripping takes
the directives of the pass from the definition itself and from its selections, at any depth. It
passes over the variables that an operation declares, so a directive of the pass that stands there
stays.

- `Definition.directiveLists`, `Definition.undirected`: the directives at each place, and the rest.
- `IsStripped`: definitions are left with all but the directives of the pass.
- `isStripped_stripDefinitions_iff`: when stripping comes to that, and what it does in any case.
-/

namespace QueryPaging

/-- The names of the directives of the pass. -/
def PassDirective.ownNames : List Name :=
  [paginateName, argumentsName, withName]

theorem PassDirective.isOwn_eq_true_iff {directive : Directive} :
    isOwn directive = true ↔ directive.name ∈ ownNames := by
  simp [isOwn, ownNames, or_assoc]

/-! ## The directives at each place -/

mutual

def Selection.directiveLists : Selection → List (List Directive)
  | .field ⟨_, _, _, directives, selections, _⟩ => directives :: directiveListsOf selections
  | .spread ⟨_, directives⟩ => [directives]
  | .inline ⟨_, directives, selections⟩ => directives :: directiveListsOf selections

/-- The directives at each place of some selections, in reading order. -/
def directiveListsOf : List Selection → List (List Directive)
  | [] => []
  | selection :: others => selection.directiveLists ++ directiveListsOf others

end

/-- The variables an operation declares. -/
def Definition.declarations : Definition → List VariableDefinition
  | .operation body => body.declarations
  | .fragment _ => []

/-- The directives at each place of a definition: its own, those of the variables it declares, and
those of its selections. -/
def Definition.directiveLists (definition : Definition) : List (List Directive) :=
  definition.directives
    :: (definition.declarations.map (·.directives) ++ directiveListsOf definition.selections)

/-! ## All the rest -/

mutual

def Selection.undirected : Selection → Selection
  | .field ⟨aliasName, name, arguments, _, selections, span⟩ =>
      .field ⟨aliasName, name, arguments, [], undirectedSelections selections, span⟩
  | .spread ⟨fragment, _⟩ => .spread ⟨fragment, []⟩
  | .inline ⟨condition, _, selections⟩ =>
      .inline ⟨condition, [], undirectedSelections selections⟩

/-- The selections without any directive. -/
def undirectedSelections : List Selection → List Selection
  | [] => []
  | selection :: others => selection.undirected :: undirectedSelections others

end

def VariableDefinition.undirected (declaration : VariableDefinition) : VariableDefinition :=
  { declaration with directives := [] }

/-- The definition without any directive. -/
def Definition.undirected : Definition → Definition
  | .operation body =>
      .operation { body with
        declarations := body.declarations.map VariableDefinition.undirected
        directives := []
        selections := undirectedSelections body.selections }
  | .fragment body =>
      .fragment { body with
        directives := []
        selections := undirectedSelections body.selections }

/-! ## Selections -/

@[simp]
theorem directiveListsOf_nil :
    directiveListsOf [] = [] := by
  rw [directiveListsOf]

@[simp]
theorem directiveListsOf_cons (selection : Selection) (others : List Selection) :
    directiveListsOf (selection :: others) =
      selection.directiveLists ++ directiveListsOf others := by
  rw [directiveListsOf]

theorem directiveLists_field (field : Field) :
    (Selection.field field).directiveLists =
      field.directives :: directiveListsOf field.selections := by
  cases field
  rw [Selection.directiveLists]

theorem directiveLists_spread (spread : Spread) :
    (Selection.spread spread).directiveLists = [spread.directives] := by
  cases spread
  rw [Selection.directiveLists]

theorem directiveLists_inline (inline : InlineFragment) :
    (Selection.inline inline).directiveLists =
      inline.directives :: directiveListsOf inline.selections := by
  cases inline
  rw [Selection.directiveLists]

@[simp]
theorem undirectedSelections_nil :
    undirectedSelections [] = [] := by
  rw [undirectedSelections]

@[simp]
theorem undirectedSelections_cons (selection : Selection) (others : List Selection) :
    undirectedSelections (selection :: others) =
      selection.undirected :: undirectedSelections others := by
  rw [undirectedSelections]

theorem undirected_field (field : Field) :
    (Selection.field field).undirected =
      .field { field with
        directives := []
        selections := undirectedSelections field.selections } := by
  cases field
  rw [Selection.undirected]

theorem undirected_spread (spread : Spread) :
    (Selection.spread spread).undirected = .spread { spread with directives := [] } := by
  cases spread
  rw [Selection.undirected]

theorem undirected_inline (inline : InlineFragment) :
    (Selection.inline inline).undirected =
      .inline { inline with
        directives := []
        selections := undirectedSelections inline.selections } := by
  cases inline
  rw [Selection.undirected]

theorem undirectedSelections_stripped (selections : List Selection) :
    undirectedSelections (strippedSelections selections) = undirectedSelections selections := by
  induction selections using selectionsInduction with
  | nil => rw [strippedSelections]
  | field field others inside behind =>
      rw [strippedSelections, undirectedSelections_cons, undirectedSelections_cons,
        stripped_field, undirected_field, undirected_field, inside, behind]
  | spread spread others behind =>
      rw [strippedSelections, undirectedSelections_cons, undirectedSelections_cons,
        stripped_spread, undirected_spread, undirected_spread, behind]
  | inline inline others inside behind =>
      rw [strippedSelections, undirectedSelections_cons, undirectedSelections_cons,
        stripped_inline, undirected_inline, undirected_inline, inside, behind]

theorem directiveListsOf_stripped (selections : List Selection) :
    directiveListsOf (strippedSelections selections) =
      (directiveListsOf selections).map foreignDirectives := by
  induction selections using selectionsInduction with
  | nil =>
      rw [strippedSelections, directiveListsOf_nil]
      rfl
  | field field others inside behind =>
      rw [strippedSelections, directiveListsOf_cons, directiveListsOf_cons, stripped_field,
        directiveLists_field, directiveLists_field, inside, behind, List.map_append,
        List.map_cons]
  | spread spread others behind =>
      rw [strippedSelections, directiveListsOf_cons, directiveListsOf_cons, stripped_spread,
        directiveLists_spread, directiveLists_spread, behind, List.map_append, List.map_singleton]
  | inline inline others inside behind =>
      rw [strippedSelections, directiveListsOf_cons, directiveListsOf_cons, stripped_inline,
        directiveLists_inline, directiveLists_inline, inside, behind, List.map_append,
        List.map_cons]

/-! ## What selections are made up of -/

theorem length_directiveListsOf_undirected (selections : List Selection) :
    (directiveListsOf (undirectedSelections selections)).length =
      (directiveListsOf selections).length := by
  induction selections using selectionsInduction with
  | nil => rw [undirectedSelections_nil]
  | field field others inside behind =>
      simp only [undirectedSelections_cons, undirected_field, directiveListsOf_cons,
        directiveLists_field, List.length_append, List.length_cons, inside, behind]
  | spread spread others behind =>
      simp only [undirectedSelections_cons, undirected_spread, directiveListsOf_cons,
        directiveLists_spread, List.length_append, List.length_cons, behind]
  | inline inline others inside behind =>
      simp only [undirectedSelections_cons, undirected_inline, directiveListsOf_cons,
        directiveLists_inline, List.length_append, List.length_cons, inside, behind]

theorem length_directiveLists_undirected (selection : Selection) :
    selection.undirected.directiveLists.length = selection.directiveLists.length := by
  have alone := length_directiveListsOf_undirected [selection]
  simpa using alone

/-- Selections that are the same without directives have the same places, so the directives of the
first selection can be told from those of the others. -/
theorem parts_of_cons {first second : Selection} {others behind : List Selection}
    (rest : undirectedSelections (first :: others) = undirectedSelections (second :: behind))
    (lists : directiveListsOf (first :: others) = directiveListsOf (second :: behind)) :
    (first.undirected = second.undirected ∧ first.directiveLists = second.directiveLists) ∧
      undirectedSelections others = undirectedSelections behind ∧
        directiveListsOf others = directiveListsOf behind := by
  rw [undirectedSelections_cons, undirectedSelections_cons, List.cons.injEq] at rest
  rw [directiveListsOf_cons, directiveListsOf_cons] at lists
  have lengths : first.directiveLists.length = second.directiveLists.length := by
    rw [← length_directiveLists_undirected first, rest.1, length_directiveLists_undirected]
  have apart := List.append_inj lists lengths
  exact ⟨⟨rest.1, apart.1⟩, rest.2, apart.2⟩

/-- That selections are told from others by what they are without directives, and by these. -/
def AreToldByParts (selections : List Selection) : Prop :=
  ∀ others, undirectedSelections selections = undirectedSelections others →
    directiveListsOf selections = directiveListsOf others → selections = others

theorem areToldByParts_nil :
    AreToldByParts [] := by
  intro others rest _
  cases others with
  | nil => rfl
  | cons selection others =>
      rw [undirectedSelections_nil, undirectedSelections_cons] at rest
      cases rest

theorem field_eq_of_parts {first second : Field}
    (below : AreToldByParts first.selections)
    (rest : (Selection.field first).undirected = (Selection.field second).undirected)
    (lists : (Selection.field first).directiveLists = (Selection.field second).directiveLists) :
    first = second := by
  rw [undirected_field, undirected_field, Selection.field.injEq, FieldOf.mk.injEq] at rest
  rw [directiveLists_field, directiveLists_field, List.cons.injEq] at lists
  have sameSelections : first.selections = second.selections :=
    below second.selections rest.2.2.2.2.1 lists.2
  cases first
  cases second
  simp_all only

theorem spread_eq_of_parts {first second : Spread}
    (rest : (Selection.spread first).undirected = (Selection.spread second).undirected)
    (lists : (Selection.spread first).directiveLists = (Selection.spread second).directiveLists) :
    first = second := by
  rw [undirected_spread, undirected_spread, Selection.spread.injEq, Spread.mk.injEq] at rest
  rw [directiveLists_spread, directiveLists_spread, List.cons.injEq] at lists
  cases first
  cases second
  simp_all only

theorem inline_eq_of_parts {first second : InlineFragment}
    (below : AreToldByParts first.selections)
    (rest : (Selection.inline first).undirected = (Selection.inline second).undirected)
    (lists : (Selection.inline first).directiveLists =
      (Selection.inline second).directiveLists) :
    first = second := by
  rw [undirected_inline, undirected_inline, Selection.inline.injEq, InlineOf.mk.injEq] at rest
  rw [directiveLists_inline, directiveLists_inline, List.cons.injEq] at lists
  have sameSelections : first.selections = second.selections :=
    below second.selections rest.2.2 lists.2
  cases first
  cases second
  simp_all only

theorem selection_eq_of_parts {first second : Selection}
    (below : AreToldByParts first.children)
    (rest : first.undirected = second.undirected)
    (lists : first.directiveLists = second.directiveLists) :
    first = second := by
  cases first with
  | field field =>
      cases second with
      | field other => rw [field_eq_of_parts below rest lists]
      | _ => simp [undirected_field, undirected_spread, undirected_inline] at rest
  | spread spread =>
      cases second with
      | spread other => rw [spread_eq_of_parts rest lists]
      | _ => simp [undirected_field, undirected_spread, undirected_inline] at rest
  | inline inline =>
      cases second with
      | inline other => rw [inline_eq_of_parts below rest lists]
      | _ => simp [undirected_field, undirected_spread, undirected_inline] at rest

theorem areToldByParts_cons {first : Selection} {others : List Selection}
    (below : AreToldByParts first.children)
    (behind : AreToldByParts others) :
    AreToldByParts (first :: others) := by
  intro right rest lists
  cases right with
  | nil =>
      rw [undirectedSelections_nil, undirectedSelections_cons] at rest
      cases rest
  | cons second later =>
      have parts := parts_of_cons rest lists
      have sameFirst := selection_eq_of_parts below parts.1.1 parts.1.2
      have sameOthers := behind later parts.2.1 parts.2.2
      rw [sameFirst, sameOthers]

/-- Selections are made up of their directives and of what they are without these. -/
theorem areToldByParts (selections : List Selection) :
    AreToldByParts selections := by
  induction selections using selectionsInduction with
  | nil => exact areToldByParts_nil
  | field field others inside behind => exact areToldByParts_cons inside behind
  | spread spread others behind => exact areToldByParts_cons areToldByParts_nil behind
  | inline inline others inside behind => exact areToldByParts_cons inside behind

/-! ## Definitions -/

theorem declarations_eq_of_parts {left right : List VariableDefinition}
    (rest : left.map VariableDefinition.undirected = right.map VariableDefinition.undirected)
    (lists : left.map (·.directives) = right.map (·.directives)) :
    left = right := by
  induction left generalizing right with
  | nil =>
      cases right with
      | nil => rfl
      | cons second others => cases rest
  | cons first others inductionHypothesis =>
      cases right with
      | nil => cases rest
      | cons second later =>
          rw [List.map_cons, List.map_cons, List.cons.injEq] at rest lists
          have sameOthers := inductionHypothesis rest.2 lists.2
          have sameFirst : first = second := by
            have head := rest.1
            rw [VariableDefinition.undirected, VariableDefinition.undirected,
              VariableDefinition.mk.injEq] at head
            cases first
            cases second
            simp_all only
          rw [sameFirst, sameOthers]

/-- Definitions are made up of their directives and of what they are without these. -/
theorem definition_eq_of_parts {left right : Definition}
    (rest : left.undirected = right.undirected)
    (lists : left.directiveLists = right.directiveLists) :
    left = right := by
  rw [Definition.directiveLists, Definition.directiveLists, List.cons.injEq] at lists
  cases left with
  | operation body =>
      cases right with
      | fragment other => cases rest
      | operation other =>
          simp only [Definition.undirected, Definition.operation.injEq, Operation.mk.injEq] at rest
          have sameLength : (body.declarations.map (·.directives)).length =
              (other.declarations.map (·.directives)).length := by
            have mapped := congrArg List.length rest.2.2.1
            simpa using mapped
          have apart := List.append_inj lists.2 sameLength
          have sameDeclarations := declarations_eq_of_parts rest.2.2.1 apart.1
          have sameSelections := areToldByParts _ _ rest.2.2.2.2.1 apart.2
          have sameDirectives : body.directives = other.directives := lists.1
          cases body
          cases other
          simp_all only
  | fragment body =>
      cases right with
      | operation other => cases rest
      | fragment other =>
          simp only [Definition.undirected, Definition.fragment.injEq, Fragment.mk.injEq] at rest
          have sameSelections := areToldByParts _ _ rest.2.2.2.1 lists.2
          have sameDirectives : body.directives = other.directives := lists.1
          cases body
          cases other
          simp_all only

/-! ## Stripped definitions -/

theorem foreignDirectives_eq_filter (directives : List Directive) :
    foreignDirectives directives =
      directives.filter fun directive => directive.name ∉ PassDirective.ownNames := by
  rw [foreignDirectives]
  apply List.filter_congr
  intro directive _
  rw [Bool.eq_iff_iff, Bool.not_eq_true', ← Bool.not_eq_true, PassDirective.isOwn_eq_true_iff,
    decide_eq_true_iff]

theorem undirected_stripped (definition : Definition) :
    definition.stripped.undirected = definition.undirected := by
  cases definition with
  | operation body =>
      simp only [Definition.stripped, Definition.undirected, undirectedSelections_stripped]
  | fragment body =>
      simp only [Definition.stripped, Definition.undirected, undirectedSelections_stripped]

/-- Stripping passes over the variables that are declared. -/
theorem directiveLists_stripped (definition : Definition) :
    definition.stripped.directiveLists =
      foreignDirectives definition.directives
        :: (definition.declarations.map (·.directives)
          ++ (directiveListsOf definition.selections).map foreignDirectives) := by
  rw [← directiveListsOf_stripped]
  cases definition <;> rfl

theorem foreignDirectives_foreignDirectives (directives : List Directive) :
    foreignDirectives (foreignDirectives directives) = foreignDirectives directives := by
  rw [foreignDirectives, foreignDirectives, List.filter_filter]
  simp only [Bool.and_self]

theorem stripped_stripped (definition : Definition) :
    definition.stripped.stripped = definition.stripped := by
  apply definition_eq_of_parts
  · exact undirected_stripped definition.stripped
  · have sameDeclarations : definition.stripped.declarations = definition.declarations := by
      cases definition <;> rfl
    have sameDirectives : definition.stripped.directives =
        foreignDirectives definition.directives := by
      cases definition <;> rfl
    have sameSelections : definition.stripped.selections =
        strippedSelections definition.selections := by
      cases definition <;> rfl
    have twice : foreignDirectives ∘ foreignDirectives = foreignDirectives :=
      funext foreignDirectives_foreignDirectives
    rw [directiveLists_stripped, directiveLists_stripped, sameDeclarations, sameDirectives,
      sameSelections, foreignDirectives_foreignDirectives, directiveListsOf_stripped, List.map_map,
      twice]

/-- That definitions are left with all that others are made up of, save the directives of the pass:
none of these stands anywhere, all other directives stay at their places and in order, and so does
all the rest. -/
structure IsStripped (before after : List Definition) : Prop where
  clean : ∀ definition ∈ after, ∀ directives ∈ definition.directiveLists,
    ∀ directive ∈ directives, directive.name ∉ PassDirective.ownNames
  kept : after.map Definition.directiveLists =
    before.map fun definition => definition.directiveLists.map
      (List.filter fun directive => directive.name ∉ PassDirective.ownNames)
  rest : after.map Definition.undirected = before.map Definition.undirected

/-- That no declared variable carries a directive of the pass. -/
def HasPlainDeclarations (definitions : List Definition) : Prop :=
  ∀ definition ∈ definitions, ∀ declaration ∈ definition.declarations,
    ∀ directive ∈ declaration.directives, directive.name ∉ PassDirective.ownNames

variable {definitions : List Definition}

theorem map_undirected_stripDefinitions (definitions : List Definition) :
    (stripDefinitions definitions).map Definition.undirected =
      definitions.map Definition.undirected := by
  rw [stripDefinitions, List.map_map]
  exact List.map_congr_left fun definition _ => undirected_stripped definition

theorem hasPlainDeclarations_of_isStripped
    (isStripped : IsStripped definitions (stripDefinitions definitions)) :
    HasPlainDeclarations definitions := by
  intro definition member declaration declared directive carried
  have stripped : definition.stripped ∈ stripDefinitions definitions :=
    List.mem_map_of_mem member
  apply isStripped.clean definition.stripped stripped declaration.directives
  · rw [directiveLists_stripped]
    apply List.mem_cons_of_mem
    exact List.mem_append_left _ (List.mem_map_of_mem declared)
  · exact carried

/-- Where no declared variable carries a directive of the pass, all places are stripped alike. -/
theorem directiveLists_stripped_of_plain {definition : Definition}
    (plain : ∀ declaration ∈ definition.declarations, ∀ directive ∈ declaration.directives,
      directive.name ∉ PassDirective.ownNames) :
    definition.stripped.directiveLists = definition.directiveLists.map foreignDirectives := by
  have untouched : definition.declarations.map (·.directives) =
      (definition.declarations.map (·.directives)).map foreignDirectives := by
    rw [List.map_map]
    apply List.map_congr_left
    intro declaration declared
    rw [Function.comp_apply, foreignDirectives_eq_filter, eq_comm, List.filter_eq_self]
    intro directive carried
    exact decide_eq_true (plain declaration declared directive carried)
  rw [directiveLists_stripped, Definition.directiveLists, List.map_cons, List.map_append,
    ← untouched]

theorem isStripped_of_hasPlainDeclarations
    (plain : HasPlainDeclarations definitions) :
    IsStripped definitions (stripDefinitions definitions) := by
  have sameFilter : foreignDirectives =
      List.filter fun directive => directive.name ∉ PassDirective.ownNames :=
    funext foreignDirectives_eq_filter
  refine ⟨?_, ?_, map_undirected_stripDefinitions definitions⟩
  · intro stripped member directives among directive carried
    obtain ⟨definition, present, rfl⟩ := List.mem_map.mp member
    rw [directiveLists_stripped_of_plain (plain definition present), sameFilter,
      List.mem_map] at among
    obtain ⟨former, _, rfl⟩ := among
    have isForeign := (List.mem_filter.mp carried).2
    exact of_decide_eq_true isForeign
  · rw [stripDefinitions, List.map_map, ← sameFilter]
    apply List.map_congr_left
    intro definition present
    exact directiveLists_stripped_of_plain (plain definition present)

/-- Stripping takes all directives of the pass just where no declared variable carries one. In any
case it takes those of the definitions themselves and of their selections, leaves everything else in
place, and does nothing when it is done again. -/
theorem isStripped_stripDefinitions_iff (definitions : List Definition) :
    (IsStripped definitions (stripDefinitions definitions) ↔ HasPlainDeclarations definitions) ∧
      (stripDefinitions definitions).map Definition.directiveLists =
        definitions.map (fun definition =>
          foreignDirectives definition.directives
            :: (definition.declarations.map (·.directives)
              ++ (directiveListsOf definition.selections).map foreignDirectives)) ∧
      (stripDefinitions definitions).map Definition.undirected =
        definitions.map Definition.undirected ∧
      stripDefinitions (stripDefinitions definitions) = stripDefinitions definitions := by
  refine ⟨⟨hasPlainDeclarations_of_isStripped, isStripped_of_hasPlainDeclarations⟩, ?_,
    map_undirected_stripDefinitions definitions, ?_⟩
  · rw [stripDefinitions, List.map_map]
    exact List.map_congr_left fun definition _ => directiveLists_stripped definition
  · rw [stripDefinitions, stripDefinitions, List.map_map]
    exact List.map_congr_left fun definition _ => stripped_stripped definition

/-! ## A variable that is marked -/

namespace Sample

def markedVariable : Name := ⟨"a", by decide⟩
def viewerField : Name := ⟨"viewer", by decide⟩

/-- An operation that declares a variable and marks it for paging. -/
def markedOperation : Definition :=
  .operation ⟨.query, none,
    [⟨markedVariable, .named Name.intType false, none, [⟨PassDirective.paginateName, []⟩]⟩], [],
    [.field (FieldOf.plain viewerField [])], none⟩

end Sample

/-- The mark of a declared variable is not taken. -/
theorem not_forall_isStripped :
    ¬ ∀ definitions, IsStripped definitions (stripDefinitions definitions) := by
  intro always
  have isStripped := always [Sample.markedOperation]
  have marked :
      [⟨PassDirective.paginateName, []⟩] ∈ Sample.markedOperation.stripped.directiveLists := by
    decide
  exact isStripped.clean Sample.markedOperation.stripped (by simp [stripDefinitions]) _ marked
    ⟨PassDirective.paginateName, []⟩ (by decide) (by decide)

example :
    rawText [Sample.markedOperation] =
      "query($a: Int @paginate) \x7b\n  viewer\n\x7d\n" := by
  decide +kernel

end QueryPaging
