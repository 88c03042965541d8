import QueryPaging.Graphql.FieldPath

/-!
# Selections and the fields in them

Induction over selection sets, and what reading and editing a field by its position have to do with
each other.

- `selectionsInduction` follows fields and inline fragments into their own selection sets.
- Reading an edited field gives the edit.
- `ReplacedAt`: an edit changes nothing besides the field.
- An edit that leaves the field as it is leaves everything as it is.
-/

namespace QueryPaging

/-- What holds of the empty selection set, and of a longer one if it holds of what its first entry
leads to and of the other entries, holds of all selection sets. -/
@[elab_as_elim]
theorem selectionsInduction
    {motive : List Selection → Prop}
    (nil : motive [])
    (field : ∀ (field : Field) (others : List Selection),
      motive field.selections → motive others → motive (.field field :: others))
    (spread : ∀ (spread : Spread) (others : List Selection),
      motive others → motive (.spread spread :: others))
    (inline : ∀ (inline : InlineFragment) (others : List Selection),
      motive inline.selections → motive others → motive (.inline inline :: others)) :
    ∀ selections : List Selection, motive selections
  | [] => nil
  | .field body :: others =>
      field body others
        (selectionsInduction nil field spread inline body.selections)
        (selectionsInduction nil field spread inline others)
  | .spread body :: others =>
      spread body others (selectionsInduction nil field spread inline others)
  | .inline body :: others =>
      inline body others
        (selectionsInduction nil field spread inline body.selections)
        (selectionsInduction nil field spread inline others)
termination_by selections => sizeOf selections
decreasing_by
  all_goals simp_wf
  all_goals
    cases body
    simp
    omega

/-! ## Steps -/

/-- The selection set a selection leads on to. -/
def Selection.children : Selection → List Selection
  | .field body => body.selections
  | .spread _ => []
  | .inline body => body.selections

/-- The selection with another selection set to lead on to. -/
def Selection.withChildren (selections : List Selection) : Selection → Selection
  | .field body => .field { body with selections }
  | .spread body => .spread body
  | .inline body => .inline { body with selections }

@[simp]
theorem fieldAt?_nil (steps : List Nat) :
    fieldAt? [] steps = none := by
  match steps with
  | [] => rfl
  | [_] => rfl
  | _ :: _ :: _ => rfl

theorem fieldAt?_step (selections : List Selection) (index next : Nat) (steps : List Nat) :
    fieldAt? selections (index :: next :: steps) =
      selections[index]?.bind fun selection => fieldAt? selection.children (next :: steps) := by
  rw [fieldAt?]
  cases present : selections[index]? with
  | none => rfl
  | some selection =>
      cases selection <;> simp [Selection.children]

theorem editFieldAt?_step (edit : Field → Field) (selections : List Selection)
    (index next : Nat) (steps : List Nat) :
    editFieldAt? edit selections (index :: next :: steps) =
      selections[index]?.bind fun selection =>
        (editFieldAt? edit selection.children (next :: steps)).map fun inner =>
          selections.set index (selection.withChildren inner) := by
  rw [editFieldAt?]
  cases present : selections[index]? with
  | none => rfl
  | some selection =>
      cases selection with
      | field field =>
          simp only [Option.bind_some, Selection.children, Selection.withChildren]
          cases editFieldAt? edit field.selections (next :: steps) <;> rfl
      | inline inline =>
          simp only [Option.bind_some, Selection.children, Selection.withChildren]
          cases editFieldAt? edit inline.selections (next :: steps) <;> rfl
      | spread spread =>
          cases steps <;> simp [Selection.children, editFieldAt?]

theorem fieldAt?_single_eq_some_iff {selections : List Selection} {last : Nat} {field : Field} :
    fieldAt? selections [last] = some field ↔ selections[last]? = some (.field field) := by
  rw [fieldAt?]
  cases present : selections[last]? with
  | none => simp
  | some selection => cases selection <;> simp

theorem editFieldAt?_single {edit : Field → Field} {selections : List Selection} {last : Nat}
    {field : Field}
    (present : selections[last]? = some (.field field)) :
    editFieldAt? edit selections [last] =
      some (selections.set last (.field (edit field))) := by
  rw [editFieldAt?, present]

/-- A position below a field, as a position from the start. -/
theorem fieldAt?_append {selections : List Selection} {steps below : List Nat} {field : Field}
    (target : fieldAt? selections steps = some field)
    (further : below ≠ []) :
    fieldAt? selections (steps ++ below) = fieldAt? field.selections below := by
  obtain ⟨first, behind, rfl⟩ := List.exists_cons_of_ne_nil further
  induction steps generalizing selections with
  | nil => cases target
  | cons index steps inductionHypothesis =>
      cases steps with
      | nil =>
          rw [List.singleton_append, fieldAt?_step, fieldAt?_single_eq_some_iff.mp target]
          rfl
      | cons next steps =>
          rw [fieldAt?_step, Option.bind_eq_some_iff] at target
          obtain ⟨selection, present, inside⟩ := target
          rw [List.cons_append, List.cons_append, fieldAt?_step, present, Option.bind_some]
          exact inductionHypothesis inside

/-! ## Reading and editing -/

/-- Reading at the position of an edit gives the edited field. -/
theorem fieldAt?_of_editFieldAt? {edit : Field → Field} {selections edited : List Selection}
    {steps : List Nat} {field : Field}
    (target : fieldAt? selections steps = some field)
    (done : editFieldAt? edit selections steps = some edited) :
    fieldAt? edited steps = some (edit field) := by
  induction steps generalizing selections edited with
  | nil => cases target
  | cons index steps inductionHypothesis =>
      cases steps with
      | nil =>
          have present := fieldAt?_single_eq_some_iff.mp target
          rw [editFieldAt?_single present] at done
          cases done
          have inside := (List.getElem?_eq_some_iff.mp present).1
          exact fieldAt?_single_eq_some_iff.mpr (by simp [inside])
      | cons next steps =>
          rw [fieldAt?_step, Option.bind_eq_some_iff] at target
          obtain ⟨selection, present, below⟩ := target
          rw [editFieldAt?_step, present, Option.bind_some, Option.map_eq_some_iff] at done
          obtain ⟨inner, editedBelow, rfl⟩ := done
          have inside := (List.getElem?_eq_some_iff.mp present).1
          have children_withChildren : (selection.withChildren inner).children = inner := by
            cases selection with
            | field field => rfl
            | inline inline => rfl
            | spread spread => simp [Selection.children] at below
          rw [fieldAt?_step]
          simp only [List.getElem?_set_self inside, Option.bind_some, children_withChildren]
          exact inductionHypothesis below editedBelow

/-- An edit that leaves its field as it is leaves all selections as they are. -/
theorem editFieldAt?_eq_self {edit : Field → Field} {selections : List Selection}
    {steps : List Nat} {field : Field}
    (target : fieldAt? selections steps = some field)
    (unchanged : edit field = field) :
    editFieldAt? edit selections steps = some selections := by
  induction steps generalizing selections with
  | nil => cases target
  | cons index steps inductionHypothesis =>
      cases steps with
      | nil =>
          have present := fieldAt?_single_eq_some_iff.mp target
          rw [editFieldAt?_single present, unchanged]
          obtain ⟨inside, value⟩ := List.getElem?_eq_some_iff.mp present
          rw [← value, List.set_getElem_self]
      | cons next steps =>
          rw [fieldAt?_step, Option.bind_eq_some_iff] at target
          obtain ⟨selection, present, below⟩ := target
          rw [editFieldAt?_step, present, Option.bind_some, inductionHypothesis below,
            Option.map_some]
          obtain ⟨inside, value⟩ := List.getElem?_eq_some_iff.mp present
          have same : selection.withChildren selection.children = selection := by
            cases selection <;> rfl
          rw [same, ← value, List.set_getElem_self]

/-! ## What an edit leaves alone -/

/-- That selections differ in one field alone, which is addressed by the given steps. -/
inductive ReplacedAt (old new : Field) : List Nat → List Selection → List Selection → Prop where
  | here (before after : List Selection) :
      ReplacedAt old new [before.length]
        (before ++ .field old :: after) (before ++ .field new :: after)
  | within (before after : List Selection) {selection : Selection} {inner : List Selection}
      {steps : List Nat}
      (inside : ReplacedAt old new steps selection.children inner) :
      ReplacedAt old new (before.length :: steps)
        (before ++ selection :: after) (before ++ selection.withChildren inner :: after)

theorem exists_append_of_getElem? {selections : List Selection} {index : Nat}
    {selection : Selection}
    (present : selections[index]? = some selection) :
    ∃ before after, selections = before ++ selection :: after ∧ before.length = index := by
  obtain ⟨inside, value⟩ := List.getElem?_eq_some_iff.mp present
  refine ⟨selections.take index, selections.drop (index + 1), ?_, List.length_take_of_le (Nat.le_of_lt inside)⟩
  rw [← value, List.getElem_cons_drop, List.take_append_drop]

/-- A field that can be read can be edited, and nothing besides it changes. -/
theorem exists_replacedAt {selections : List Selection} {steps : List Nat} {field : Field}
    (edit : Field → Field)
    (target : fieldAt? selections steps = some field) :
    ∃ edited, editFieldAt? edit selections steps = some edited ∧
      ReplacedAt field (edit field) steps selections edited := by
  induction steps generalizing selections with
  | nil => cases target
  | cons index steps inductionHypothesis =>
      cases steps with
      | nil =>
          have present := fieldAt?_single_eq_some_iff.mp target
          obtain ⟨before, after, rfl, rfl⟩ := exists_append_of_getElem? present
          refine ⟨_, editFieldAt?_single present, ?_⟩
          simpa using ReplacedAt.here before after
      | cons next steps =>
          rw [fieldAt?_step, Option.bind_eq_some_iff] at target
          obtain ⟨selection, present, below⟩ := target
          obtain ⟨inner, edited, replaced⟩ := inductionHypothesis below
          obtain ⟨before, after, rfl, rfl⟩ := exists_append_of_getElem? present
          refine ⟨before ++ selection.withChildren inner :: after, ?_, .within before after replaced⟩
          rw [editFieldAt?_step, present, Option.bind_some, edited, Option.map_some]
          simp

end QueryPaging
