import QueryPaging.Embedding
import QueryPaging.Proofs.Selections

/-!
# Definitions apart from their places

Two definitions are the same if they differ only in where they stood in their sources. What is sent
to a server, and which fragments are reached, depends on nothing else.

- `normalizedText_unplaced`: the text of definitions does not show their places.
- `spreadNamesOf_unplaced`: neither do the fragments they spread.
-/

namespace QueryPaging

mutual

/-- The selection without the places of its fields. -/
def Selection.unplaced : Selection → Selection
  | .field ⟨aliasName, name, arguments, directives, selections, _⟩ =>
      .field ⟨aliasName, name, arguments, directives, unplacedSelections selections, none⟩
  | .spread body => .spread body
  | .inline ⟨condition, directives, selections⟩ =>
      .inline ⟨condition, directives, unplacedSelections selections⟩

def unplacedSelections : List Selection → List Selection
  | [] => []
  | selection :: others => selection.unplaced :: unplacedSelections others

end

/-- The fragment without its place and those of its fields. -/
def Fragment.unplaced (fragment : Fragment) : Fragment :=
  { fragment with selections := unplacedSelections fragment.selections, span := none }

theorem Fragment.head_eq_of_unplaced_eq {left right : Fragment}
    (same : left.unplaced = right.unplaced) :
    left.name = right.name ∧ left.condition = right.condition := by
  have names : left.unplaced.name = right.unplaced.name := congrArg Fragment.name same
  have conditions : left.unplaced.condition = right.unplaced.condition :=
    congrArg Fragment.condition same
  exact ⟨names, conditions⟩

def Definition.unplaced : Definition → Definition
  | .operation body =>
      .operation { body with selections := unplacedSelections body.selections, span := none }
  | .fragment body => .fragment body.unplaced

/-! ## Selections -/

@[simp]
theorem unplacedSelections_nil :
    unplacedSelections [] = [] := by
  rw [unplacedSelections]

@[simp]
theorem unplacedSelections_cons (selection : Selection) (others : List Selection) :
    unplacedSelections (selection :: others) =
      selection.unplaced :: unplacedSelections others := by
  rw [unplacedSelections]

theorem unplaced_field (field : Field) :
    (Selection.field field).unplaced =
      .field { field with selections := unplacedSelections field.selections, span := none } := by
  cases field
  rw [Selection.unplaced]

theorem unplaced_inline (inline : InlineFragment) :
    (Selection.inline inline).unplaced =
      .inline { inline with selections := unplacedSelections inline.selections } := by
  cases inline
  rw [Selection.unplaced]

theorem isEmpty_unplacedSelections (selections : List Selection) :
    (unplacedSelections selections).isEmpty = selections.isEmpty := by
  cases selections <;> simp

theorem spreadNamesOf_unplaced (selections : List Selection) :
    spreadNamesOf (unplacedSelections selections) = spreadNamesOf selections := by
  induction selections using selectionsInduction with
  | nil => simp
  | field field others inside behind =>
      simp only [unplacedSelections_cons, unplaced_field, spreadNamesOf, Selection.spreadNames,
        inside, behind]
  | spread spread others behind =>
      simp only [unplacedSelections_cons, Selection.unplaced, spreadNamesOf, behind]
  | inline inline others inside behind =>
      simp only [unplacedSelections_cons, unplaced_inline, spreadNamesOf, Selection.spreadNames,
        inside, behind]

theorem strippedSelections_unplaced (selections : List Selection) :
    strippedSelections (unplacedSelections selections) =
      unplacedSelections (strippedSelections selections) := by
  induction selections using selectionsInduction with
  | nil => simp [strippedSelections]
  | field field others inside behind =>
      simp only [unplacedSelections_cons, unplaced_field, strippedSelections, Selection.stripped,
        inside, behind]
  | spread spread others behind =>
      simp only [unplacedSelections_cons, Selection.unplaced, strippedSelections,
        Selection.stripped, behind]
  | inline inline others inside behind =>
      simp only [unplacedSelections_cons, unplaced_inline, strippedSelections, Selection.stripped,
        inside, behind]

theorem renderSelections_unplaced (layout : Layout) (selections : List Selection) :
    renderSelections layout (unplacedSelections selections) =
      renderSelections layout selections := by
  induction selections using selectionsInduction generalizing layout with
  | nil => simp
  | field field others inside behind =>
      simp only [unplacedSelections_cons, unplaced_field, renderSelections, Selection.render,
        isEmpty_unplacedSelections, inside, behind]
  | spread spread others behind =>
      simp only [unplacedSelections_cons, Selection.unplaced, renderSelections, behind]
  | inline inline others inside behind =>
      simp only [unplacedSelections_cons, unplaced_inline, renderSelections, Selection.render,
        inside, behind]

/-! ## Definitions -/

theorem stripped_unplaced (definition : Definition) :
    definition.unplaced.stripped = definition.stripped.unplaced := by
  cases definition with
  | operation body =>
      simp only [Definition.unplaced, Definition.stripped, strippedSelections_unplaced]
  | fragment body =>
      simp only [Definition.unplaced, Fragment.unplaced, Definition.stripped,
        strippedSelections_unplaced]

theorem render_unplaced (layout : Layout) (isFirst : Bool) (definition : Definition) :
    definition.unplaced.render layout isFirst = definition.render layout isFirst := by
  cases definition with
  | operation body =>
      simp only [Definition.unplaced, Definition.render, renderSelections_unplaced]
      rfl
  | fragment body =>
      simp only [Definition.unplaced, Fragment.unplaced, Definition.render,
        renderSelections_unplaced]
      rfl

theorem renderDefinitions_unplaced (layout : Layout) (isFirst : Bool)
    (definitions : List Definition) :
    renderDefinitions layout isFirst (definitions.map Definition.unplaced) =
      renderDefinitions layout isFirst definitions := by
  induction definitions generalizing isFirst with
  | nil => rfl
  | cons definition others inductionHypothesis =>
      rw [List.map_cons, renderDefinitions, renderDefinitions, render_unplaced,
        inductionHypothesis]

theorem normalizedText_unplaced (definitions : List Definition) :
    normalizedText (definitions.map Definition.unplaced) = normalizedText definitions := by
  have stripped : stripDefinitions (definitions.map Definition.unplaced) =
      (stripDefinitions definitions).map Definition.unplaced := by
    simp only [stripDefinitions, List.map_map]
    exact List.map_congr_left fun definition _ => stripped_unplaced definition
  rw [normalizedText, normalizedText, stripped, renderFlat, renderFlat,
    renderDefinitions_unplaced]

/-- Definitions that differ in their places alone have one text. -/
theorem normalizedText_congr {left right : List Definition}
    (same : left.map Definition.unplaced = right.map Definition.unplaced) :
    normalizedText left = normalizedText right := by
  rw [← normalizedText_unplaced left, same, normalizedText_unplaced]

end QueryPaging
