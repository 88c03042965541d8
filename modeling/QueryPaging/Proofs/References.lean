import QueryPaging.RawText
import QueryPaging.Proofs.Augmenting
import QueryPaging.Proofs.Promoting

/-!
# Variables that are referred to

The variables occurring in selections and definitions, and where they come from when a document is
rewritten: from the document as it was, from the defaults of its variables, or from the arguments
of its paginated field.
-/

namespace QueryPaging

/-! ## Occurrences -/

def Argument.references (argument : Argument) : List Name :=
  argument.value.references

def Directive.references (directive : Directive) : List Name :=
  directive.arguments.flatMap Argument.references

mutual

/-- The variables occurring in a selection, in the order they are written. -/
def Selection.references : Selection → List Name
  | .field ⟨_, _, arguments, directives, selections, _⟩ =>
      arguments.flatMap Argument.references ++ directives.flatMap Directive.references
        ++ referencesOf selections
  | .spread ⟨_, directives⟩ => directives.flatMap Directive.references
  | .inline ⟨_, directives, selections⟩ =>
      directives.flatMap Directive.references ++ referencesOf selections

def referencesOf : List Selection → List Name
  | [] => []
  | selection :: others => selection.references ++ referencesOf others

end

def VariableDefinition.references (declaration : VariableDefinition) : List Name :=
  (declaration.default.map Value.references).getD []
    ++ declaration.directives.flatMap Directive.references

/-- The variables occurring in a definition: in the defaults of its declarations, in its
directives and in its selections. -/
def Definition.references : Definition → List Name
  | .operation body =>
      body.declarations.flatMap VariableDefinition.references
        ++ body.directives.flatMap Directive.references ++ referencesOf body.selections
  | .fragment body =>
      body.directives.flatMap Directive.references ++ referencesOf body.selections

@[simp]
theorem referencesOf_nil :
    referencesOf [] = [] := by
  rw [referencesOf]

@[simp]
theorem referencesOf_cons (selection : Selection) (others : List Selection) :
    referencesOf (selection :: others) = selection.references ++ referencesOf others := by
  rw [referencesOf]

theorem references_field (field : Field) :
    (Selection.field field).references =
      field.arguments.flatMap Argument.references
        ++ field.directives.flatMap Directive.references ++ referencesOf field.selections := by
  cases field
  rw [Selection.references]

theorem references_spread (spread : Spread) :
    (Selection.spread spread).references = spread.directives.flatMap Directive.references := by
  cases spread
  rw [Selection.references]

theorem references_inline (inline : InlineFragment) :
    (Selection.inline inline).references =
      inline.directives.flatMap Directive.references ++ referencesOf inline.selections := by
  cases inline
  rw [Selection.references]

theorem references_subset_of_mem {selection : Selection} {selections : List Selection}
    (member : selection ∈ selections) :
    selection.references ⊆ referencesOf selections := by
  induction selections with
  | nil => cases member
  | cons first others inductionHypothesis =>
      rw [referencesOf_cons]
      rcases List.mem_cons.mp member with rfl | later
      · exact List.subset_append_left ..
      · exact List.Subset.trans (inductionHypothesis later) (List.subset_append_right ..)

theorem children_subset_references (selection : Selection) :
    referencesOf selection.children ⊆ selection.references := by
  cases selection with
  | field field =>
      rw [references_field]
      exact List.subset_append_right ..
  | spread spread => simp [Selection.children]
  | inline inline =>
      rw [references_inline]
      exact List.subset_append_right ..

theorem selections_subset_references (definition : Definition) :
    referencesOf definition.selections ⊆ definition.references := by
  cases definition <;> exact List.subset_append_right ..

/-! ## Stripping -/

theorem foreignDirectives_subset (directives : List Directive) :
    (foreignDirectives directives).flatMap Directive.references ⊆
      directives.flatMap Directive.references := by
  intro name member
  obtain ⟨directive, among, inside⟩ := List.mem_flatMap.mp member
  exact List.mem_flatMap.mpr ⟨directive, (List.mem_filter.mp among).1, inside⟩

theorem strippedSelections_subset (selections : List Selection) :
    referencesOf (strippedSelections selections) ⊆ referencesOf selections := by
  induction selections using selectionsInduction with
  | nil =>
      rw [strippedSelections]
      exact fun _ member => member
  | field field others below behind =>
      obtain ⟨aliasName, name, arguments, directives, selections, span⟩ := field
      rw [strippedSelections, referencesOf_cons, referencesOf_cons]
      refine List.append_subset.mpr
        ⟨?_, List.Subset.trans behind (List.subset_append_right ..)⟩
      refine List.Subset.trans ?_ (List.subset_append_left ..)
      rw [Selection.stripped, references_field, references_field]
      intro member
      simp only [List.mem_append]
      rintro ((argument | directive) | inside)
      · exact Or.inl (Or.inl argument)
      · exact Or.inl (Or.inr (foreignDirectives_subset directives directive))
      · exact Or.inr (below inside)
  | spread spread others behind =>
      obtain ⟨fragment, directives⟩ := spread
      rw [strippedSelections, referencesOf_cons, referencesOf_cons]
      refine List.append_subset.mpr
        ⟨?_, List.Subset.trans behind (List.subset_append_right ..)⟩
      refine List.Subset.trans ?_ (List.subset_append_left ..)
      rw [Selection.stripped, references_spread, references_spread]
      exact foreignDirectives_subset directives
  | inline inline others below behind =>
      obtain ⟨condition, directives, selections⟩ := inline
      rw [strippedSelections, referencesOf_cons, referencesOf_cons]
      refine List.append_subset.mpr
        ⟨?_, List.Subset.trans behind (List.subset_append_right ..)⟩
      refine List.Subset.trans ?_ (List.subset_append_left ..)
      rw [Selection.stripped, references_inline, references_inline]
      intro member
      simp only [List.mem_append]
      rintro (directive | inside)
      · exact Or.inl (foreignDirectives_subset directives directive)
      · exact Or.inr (below inside)

theorem stripped_subset (definition : Definition) :
    definition.stripped.references ⊆ definition.references := by
  intro name
  cases definition with
  | operation body =>
      simp only [Definition.stripped, Definition.references, List.mem_append]
      rintro ((declaration | directive) | inside)
      · exact Or.inl (Or.inl declaration)
      · exact Or.inl (Or.inr (foreignDirectives_subset _ directive))
      · exact Or.inr (strippedSelections_subset _ inside)
  | fragment body =>
      simp only [Definition.stripped, Definition.references, List.mem_append]
      rintro (directive | inside)
      · exact Or.inl (foreignDirectives_subset _ directive)
      · exact Or.inr (strippedSelections_subset _ inside)

/-! ## Editing -/

/-- What is referred to in a field is referred to in the selections it is read from. -/
theorem fieldAt?_subset {selections : List Selection} {steps : List Nat} {field : Field}
    (target : fieldAt? selections steps = some field) :
    (Selection.field field).references ⊆ referencesOf selections := by
  induction steps generalizing selections with
  | nil => cases target
  | cons index steps inductionHypothesis =>
      cases steps with
      | nil =>
          exact references_subset_of_mem
            (List.mem_of_getElem? (fieldAt?_single_eq_some_iff.mp target))
      | cons next steps =>
          rw [fieldAt?_step, Option.bind_eq_some_iff] at target
          obtain ⟨selection, present, inside⟩ := target
          have among := references_subset_of_mem (List.mem_of_getElem? present)
          exact List.Subset.trans (inductionHypothesis inside)
            (List.Subset.trans (children_subset_references selection) among)

theorem mem_referencesOf_iff {selections : List Selection} {name : Name} :
    name ∈ referencesOf selections ↔ ∃ selection ∈ selections, name ∈ selection.references := by
  constructor
  · intro member
    induction selections with
    | nil => simp at member
    | cons first others inductionHypothesis =>
        rw [referencesOf_cons, List.mem_append] at member
        rcases member with here | later
        · exact ⟨first, by simp, here⟩
        · obtain ⟨selection, among, inside⟩ := inductionHypothesis later
          exact ⟨selection, List.mem_cons_of_mem first among, inside⟩
  · rintro ⟨selection, among, inside⟩
    exact references_subset_of_mem among inside

theorem mem_references_set {selections : List Selection} {position : Nat}
    {replacement : Selection} {name : Name}
    (member : name ∈ referencesOf (selections.set position replacement)) :
    name ∈ referencesOf selections ∨ name ∈ replacement.references := by
  obtain ⟨selection, among, inside⟩ := mem_referencesOf_iff.mp member
  rcases List.mem_or_eq_of_mem_set among with before | rfl
  · exact Or.inl (references_subset_of_mem before inside)
  · exact Or.inr inside

theorem mem_references_withChildren {selection : Selection} {inner : List Selection}
    {name : Name}
    (member : name ∈ (selection.withChildren inner).references) :
    name ∈ selection.references ∨ name ∈ referencesOf inner := by
  cases selection with
  | field field =>
      rw [Selection.withChildren, references_field, List.mem_append] at member
      rw [references_field]
      exact member.imp_left fun own => List.mem_append_left _ own
  | spread spread => exact Or.inl member
  | inline inline =>
      rw [Selection.withChildren, references_inline, List.mem_append] at member
      rw [references_inline]
      exact member.imp_left fun own => List.mem_append_left _ own

/-- What is referred to after an edit was referred to before, or is referred to in the edited
field. -/
theorem mem_references_editFieldAt? {edit : Field → Field} {selections edited : List Selection}
    {steps : List Nat} {field : Field} {name : Name}
    (target : fieldAt? selections steps = some field)
    (done : editFieldAt? edit selections steps = some edited)
    (member : name ∈ referencesOf edited) :
    name ∈ referencesOf selections ∨ name ∈ (Selection.field (edit field)).references := by
  induction steps generalizing selections edited with
  | nil => cases target
  | cons index steps inductionHypothesis =>
      cases steps with
      | nil =>
          rw [editFieldAt?_single (fieldAt?_single_eq_some_iff.mp target)] at done
          cases done
          exact mem_references_set member
      | cons next steps =>
          rw [fieldAt?_step, Option.bind_eq_some_iff] at target
          obtain ⟨selection, present, inside⟩ := target
          rw [editFieldAt?_step, present, Option.bind_some, Option.map_eq_some_iff] at done
          obtain ⟨inner, editedInside, rfl⟩ := done
          have among := references_subset_of_mem (List.mem_of_getElem? present)
          rcases mem_references_set member with before | replaced
          · exact Or.inl before
          · rcases mem_references_withChildren replaced with own | below
            · exact Or.inl (among own)
            · rcases inductionHypothesis inside editedInside below with before | new
              · exact Or.inl (among (children_subset_references selection before))
              · exact Or.inr new

end QueryPaging
