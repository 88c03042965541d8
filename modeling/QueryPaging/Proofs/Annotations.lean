import QueryPaging.Proofs.Places

/-!
# What stripping takes away

The directives of the pass are all that is lost when definitions are stripped. Together with the
places where they stood they make up what a definition was.

- `Definition.unplaced_eq_iff`: two definitions are the same just where they are the same stripped
  and carry the same directives of the pass at the same places.
-/

namespace QueryPaging

/-- The directives of the pass in a list, with gaps where others stand. -/
def ownDirectives (directives : List Directive) : List (Option Directive) :=
  directives.map (Option.guard PassDirective.isOwn)

mutual

/-- The directives of the pass at each place of a selection, in reading order. -/
def Selection.annotations : Selection → List (List (Option Directive))
  | .field ⟨_, _, _, directives, selections, _⟩ =>
      ownDirectives directives :: annotationsOf selections
  | .spread ⟨_, directives⟩ => [ownDirectives directives]
  | .inline ⟨_, directives, selections⟩ => ownDirectives directives :: annotationsOf selections

def annotationsOf : List Selection → List (List (Option Directive))
  | [] => []
  | selection :: others => selection.annotations ++ annotationsOf others

end

def Definition.annotations (definition : Definition) : List (List (Option Directive)) :=
  ownDirectives definition.directives :: annotationsOf definition.selections

/-! ## Lists of directives -/

theorem foreignDirectives_cons (first : Directive) (others : List Directive) :
    foreignDirectives (first :: others) =
      if PassDirective.isOwn first then foreignDirectives others
      else first :: foreignDirectives others := by
  by_cases own : PassDirective.isOwn first = true
  · simp [foreignDirectives, own]
  · simp [foreignDirectives, own]

/-- A list of directives is made up of what stays of it and of what does not. -/
theorem directives_eq_of_parts {left right : List Directive}
    (foreign : foreignDirectives left = foreignDirectives right)
    (own : ownDirectives left = ownDirectives right) :
    left = right := by
  induction left generalizing right with
  | nil =>
      cases right with
      | nil => rfl
      | cons first others => simp [ownDirectives] at own
  | cons first others inductionHypothesis =>
      cases right with
      | nil => simp [ownDirectives] at own
      | cons second rest =>
          simp only [ownDirectives, List.map_cons, List.cons.injEq] at own
          obtain ⟨heads, tails⟩ := own
          rw [foreignDirectives_cons, foreignDirectives_cons] at foreign
          by_cases isOwn : PassDirective.isOwn first = true
          · have isGuarded : Option.guard PassDirective.isOwn second = some first := by
              rw [← heads, Option.guard_eq_some_iff]
              exact ⟨rfl, isOwn⟩
            obtain ⟨same, _⟩ := Option.guard_eq_some_iff.mp isGuarded
            subst same
            simp only [isOwn, if_true] at foreign
            rw [inductionHypothesis foreign tails]
          · have isGap : Option.guard PassDirective.isOwn second = none := by
              rw [← heads, Option.guard_eq_none_iff]
              simpa using isOwn
            have isForeign : PassDirective.isOwn second = false := by
              simpa using Option.guard_eq_none_iff.mp isGap
            simp only [isOwn, isForeign, Bool.false_eq_true, if_false, List.cons.injEq] at foreign
            rw [foreign.1, inductionHypothesis foreign.2 tails]

/-! ## Selections -/

@[simp]
theorem annotationsOf_nil :
    annotationsOf [] = [] := by
  rw [annotationsOf]

@[simp]
theorem annotationsOf_cons (selection : Selection) (others : List Selection) :
    annotationsOf (selection :: others) = selection.annotations ++ annotationsOf others := by
  rw [annotationsOf]

theorem annotations_field (field : Field) :
    (Selection.field field).annotations =
      ownDirectives field.directives :: annotationsOf field.selections := by
  cases field
  rw [Selection.annotations]

theorem annotations_spread (spread : Spread) :
    (Selection.spread spread).annotations = [ownDirectives spread.directives] := by
  cases spread
  rw [Selection.annotations]

theorem annotations_inline (inline : InlineFragment) :
    (Selection.inline inline).annotations =
      ownDirectives inline.directives :: annotationsOf inline.selections := by
  cases inline
  rw [Selection.annotations]

theorem stripped_field (field : Field) :
    (Selection.field field).stripped =
      .field { field with
        directives := foreignDirectives field.directives
        selections := strippedSelections field.selections } := by
  cases field
  rw [Selection.stripped]

theorem stripped_spread (spread : Spread) :
    (Selection.spread spread).stripped =
      .spread { spread with directives := foreignDirectives spread.directives } := by
  cases spread
  rw [Selection.stripped]

theorem stripped_inline (inline : InlineFragment) :
    (Selection.inline inline).stripped =
      .inline { inline with
        directives := foreignDirectives inline.directives
        selections := strippedSelections inline.selections } := by
  cases inline
  rw [Selection.stripped]

/-- The selection stripped and without its place. -/
def Selection.bare (selection : Selection) : Selection :=
  selection.stripped.unplaced

def bareSelections (selections : List Selection) : List Selection :=
  unplacedSelections (strippedSelections selections)

theorem bareSelections_cons (selection : Selection) (others : List Selection) :
    bareSelections (selection :: others) = selection.bare :: bareSelections others := by
  rw [bareSelections, strippedSelections, unplacedSelections_cons]
  rfl

theorem bare_field (field : Field) :
    (Selection.field field).bare =
      .field { field with
        directives := foreignDirectives field.directives
        selections := bareSelections field.selections
        span := none } := by
  rw [Selection.bare, stripped_field, unplaced_field]
  rfl

theorem bare_spread (spread : Spread) :
    (Selection.spread spread).bare =
      .spread { spread with directives := foreignDirectives spread.directives } := by
  rw [Selection.bare, stripped_spread, Selection.unplaced]

theorem bare_inline (inline : InlineFragment) :
    (Selection.inline inline).bare =
      .inline { inline with
        directives := foreignDirectives inline.directives
        selections := bareSelections inline.selections } := by
  rw [Selection.bare, stripped_inline, unplaced_inline]
  rfl

theorem length_annotationsOf_bareSelections (selections : List Selection) :
    (annotationsOf (bareSelections selections)).length = (annotationsOf selections).length := by
  induction selections using selectionsInduction with
  | nil => rfl
  | field field others inside behind =>
      simp only [bareSelections_cons, bare_field, annotationsOf_cons, annotations_field,
        List.length_append, List.length_cons, inside, behind]
  | spread spread others behind =>
      simp only [bareSelections_cons, bare_spread, annotationsOf_cons, annotations_spread,
        List.length_append, List.length_cons, behind]
  | inline inline others inside behind =>
      simp only [bareSelections_cons, bare_inline, annotationsOf_cons, annotations_inline,
        List.length_append, List.length_cons, inside, behind]

/-- Selections that are the same when bare carry their directives at the same places, so those of
the first can be told from those of the others. -/
theorem annotationsOf_cons_inj {first second : Selection} {others rest : List Selection}
    (bare : bareSelections (first :: others) = bareSelections (second :: rest))
    (own : annotationsOf (first :: others) = annotationsOf (second :: rest)) :
    first.bare = second.bare ∧ first.annotations = second.annotations ∧
      bareSelections others = bareSelections rest ∧ annotationsOf others = annotationsOf rest := by
  rw [bareSelections_cons, bareSelections_cons, List.cons.injEq] at bare
  rw [annotationsOf_cons, annotationsOf_cons] at own
  have lengths : first.annotations.length = second.annotations.length := by
    have left := length_annotationsOf_bareSelections [first]
    have right := length_annotationsOf_bareSelections [second]
    have alone : bareSelections [first] = bareSelections [second] := by
      rw [bareSelections_cons, bareSelections_cons, bare.1]
    rw [alone] at left
    simpa using left.symm.trans right
  obtain ⟨heads, tails⟩ := List.append_inj own lengths
  exact ⟨bare.1, heads, bare.2, tails⟩

/-- Selections are the same if their first ones are and the others are. -/
theorem unplacedSelections_cons_eq {first : Selection} {others right : List Selection}
    (here : ∀ second : Selection, first.bare = second.bare →
      first.annotations = second.annotations → first.unplaced = second.unplaced)
    (behind : ∀ rest : List Selection, bareSelections others = bareSelections rest →
      annotationsOf others = annotationsOf rest →
      unplacedSelections others = unplacedSelections rest)
    (bare : bareSelections (first :: others) = bareSelections right)
    (own : annotationsOf (first :: others) = annotationsOf right) :
    unplacedSelections (first :: others) = unplacedSelections right := by
  cases right with
  | nil =>
      rw [bareSelections_cons] at bare
      cases bare
  | cons second rest =>
      obtain ⟨head, directives, tail, later⟩ := annotationsOf_cons_inj bare own
      rw [unplacedSelections_cons, unplacedSelections_cons, here second head directives,
        behind rest tail later]

theorem unplacedSelections_eq_of_parts {left right : List Selection}
    (bare : bareSelections left = bareSelections right)
    (own : annotationsOf left = annotationsOf right) :
    unplacedSelections left = unplacedSelections right := by
  induction left using selectionsInduction generalizing right with
  | nil =>
      cases right with
      | nil => rfl
      | cons second rest =>
          rw [bareSelections_cons] at bare
          cases bare
  | field field others inside behind =>
      refine unplacedSelections_cons_eq ?_ (fun _ => behind) bare own
      intro second head directives
      cases second with
      | field other =>
          rw [bare_field, bare_field, Selection.field.injEq, FieldOf.mk.injEq] at head
          rw [annotations_field, annotations_field, List.cons.injEq] at directives
          obtain ⟨sameAlias, sameName, sameArguments, foreign, nested, _⟩ := head
          have sameDirectives := directives_eq_of_parts foreign directives.1
          rw [unplaced_field, unplaced_field, sameAlias, sameName, sameArguments, sameDirectives,
            inside nested directives.2]
      | spread other => cases (bare_field field).symm.trans (head.trans (bare_spread other))
      | inline other => cases (bare_field field).symm.trans (head.trans (bare_inline other))
  | spread spread others behind =>
      refine unplacedSelections_cons_eq ?_ (fun _ => behind) bare own
      intro second head directives
      cases second with
      | spread other =>
          obtain ⟨fragment, list⟩ := spread
          obtain ⟨otherFragment, otherList⟩ := other
          rw [bare_spread, bare_spread, Selection.spread.injEq, Spread.mk.injEq] at head
          rw [annotations_spread, annotations_spread, List.cons.injEq] at directives
          have sameDirectives : list = otherList := directives_eq_of_parts head.2 directives.1
          have sameFragment : fragment = otherFragment := head.1
          rw [sameFragment, sameDirectives]
      | field other => cases (bare_spread spread).symm.trans (head.trans (bare_field other))
      | inline other => cases (bare_spread spread).symm.trans (head.trans (bare_inline other))
  | inline inline others inside behind =>
      refine unplacedSelections_cons_eq ?_ (fun _ => behind) bare own
      intro second head directives
      cases second with
      | inline other =>
          rw [bare_inline, bare_inline, Selection.inline.injEq, InlineOf.mk.injEq] at head
          rw [annotations_inline, annotations_inline, List.cons.injEq] at directives
          obtain ⟨sameCondition, foreign, nested⟩ := head
          have sameDirectives := directives_eq_of_parts foreign directives.1
          rw [unplaced_inline, unplaced_inline, sameCondition, sameDirectives,
            inside nested directives.2]
      | field other => cases (bare_inline inline).symm.trans (head.trans (bare_field other))
      | spread other => cases (bare_inline inline).symm.trans (head.trans (bare_spread other))

theorem annotationsOf_unplacedSelections (selections : List Selection) :
    annotationsOf (unplacedSelections selections) = annotationsOf selections := by
  induction selections using selectionsInduction with
  | nil => rfl
  | field field others inside behind =>
      simp only [unplacedSelections_cons, unplaced_field, annotationsOf_cons, annotations_field,
        inside, behind]
  | spread spread others behind =>
      simp only [unplacedSelections_cons, Selection.unplaced, annotationsOf_cons, behind]
  | inline inline others inside behind =>
      simp only [unplacedSelections_cons, unplaced_inline, annotationsOf_cons, annotations_inline,
        inside, behind]

/-! ## Definitions -/

theorem annotations_unplaced (definition : Definition) :
    definition.unplaced.annotations = definition.annotations := by
  cases definition with
  | operation body =>
      have selections := annotationsOf_unplacedSelections body.selections
      exact congrArg (ownDirectives body.directives :: ·) selections
  | fragment body =>
      have selections := annotationsOf_unplacedSelections body.selections
      exact congrArg (ownDirectives body.directives :: ·) selections

/-- A definition is made up of what is sent of it and of the directives of the pass. -/
theorem Definition.unplaced_eq_iff {left right : Definition} :
    left.unplaced = right.unplaced ↔
      left.stripped.unplaced = right.stripped.unplaced ∧ left.annotations = right.annotations := by
  constructor
  · intro same
    constructor
    · rw [← stripped_unplaced, same, stripped_unplaced]
    · rw [← annotations_unplaced, same, annotations_unplaced]
  · rintro ⟨bare, own⟩
    rw [annotations, annotations, List.cons.injEq] at own
    cases left with
    | operation body =>
        cases right with
        | fragment other => cases bare
        | operation other =>
            obtain ⟨kind, name, declarations, directives, selections, span⟩ := body
            simp only [stripped, unplaced, Definition.operation.injEq, Operation.mk.injEq] at bare
            obtain ⟨rfl, rfl, rfl, foreign, nested, _⟩ := bare
            have sameDirectives := directives_eq_of_parts foreign own.1
            have sameSelections := unplacedSelections_eq_of_parts nested own.2
            simp only [unplaced, sameDirectives, sameSelections]
    | fragment body =>
        cases right with
        | operation other => cases bare
        | fragment other =>
            obtain ⟨name, condition, directives, selections, span⟩ := body
            simp only [stripped, unplaced, Fragment.unplaced, Definition.fragment.injEq,
              Fragment.mk.injEq] at bare
            obtain ⟨rfl, rfl, foreign, nested, _⟩ := bare
            have sameDirectives := directives_eq_of_parts foreign own.1
            have sameSelections := unplacedSelections_eq_of_parts nested own.2
            simp only [unplaced, Fragment.unplaced, sameDirectives, sameSelections]

end QueryPaging
