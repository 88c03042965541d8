import QueryPaging.Proofs.Declarations
import QueryPaging.Proofs.Selections

/-!
# Fields of a document, read and replaced

Reading and replacing a field walk down a document by the same indices. Both find the same field or
none, and replacing it shows only where it stood: in the field itself and in those around it.

- `ReplacedAt.fieldAt?_beside`, `ReplacedAt.rel_fieldAt?_above`: what is read elsewhere in
  selections that differ in one field.
- `Document.field?_editField?`: the laws of reading and replacing.
-/

namespace QueryPaging

/-! ## Selections that differ in one field -/

/-- What is read first depends on a single selection. -/
theorem fieldAt?_congr {left right : List Selection} {index : Nat} (steps : List Nat)
    (same : left[index]? = right[index]?) :
    fieldAt? left (index :: steps) = fieldAt? right (index :: steps) := by
  cases steps with
  | nil => rw [fieldAt?, fieldAt?, same]
  | cons next steps => rw [fieldAt?_step, fieldAt?_step, same]

theorem getElem?_append_cons_of_ne {Item : Type} {before after : List Item} {index : Nat}
    (left right : Item)
    (apart : index ≠ before.length) :
    (before ++ left :: after)[index]? = (before ++ right :: after)[index]? := by
  by_cases earlier : index < before.length
  · rw [List.getElem?_append_left earlier, List.getElem?_append_left earlier]
  · have later : index - before.length ≠ 0 := by omega
    rw [List.getElem?_append_right (by omega), List.getElem?_append_right (by omega),
      List.getElem?_cons, List.getElem?_cons, if_neg later, if_neg later]

theorem fieldAt?_through (before after : List Selection) (selection : Selection) (next : Nat)
    (steps : List Nat) :
    fieldAt? (before ++ selection :: after) (before.length :: next :: steps) =
      fieldAt? selection.children (next :: steps) := by
  rw [fieldAt?_step, List.getElem?_append_right (Nat.le_refl _), Nat.sub_self,
    List.getElem?_cons_zero, Option.bind_some]

@[simp]
theorem Selection.withChildren_withChildren (selection : Selection)
    (selections replacement : List Selection) :
    (selection.withChildren selections).withChildren replacement =
      selection.withChildren replacement := by
  cases selection <;> rfl

@[simp]
theorem Definition.withSelections_selections (definition : Definition) :
    definition.withSelections definition.selections = definition := by
  cases definition <;> rfl

/-- That a field is another one with a field in its selections replaced. -/
def HoldsInstead (old new : Field) (below : List Nat) (outer changed : Field) : Prop :=
  ∃ inner, ReplacedAt old new below outer.selections inner ∧
    changed = { outer with selections := inner }

namespace ReplacedAt

variable {old new : Field} {steps : List Nat} {selections edited : List Selection}

theorem selections_ne_nil (replaced : ReplacedAt old new steps selections edited) :
    selections ≠ [] := by
  cases replaced with
  | here before after => exact List.append_ne_nil_of_right_ne_nil before (List.cons_ne_nil _ _)
  | within before after inside =>
      exact List.append_ne_nil_of_right_ne_nil before (List.cons_ne_nil _ _)

theorem children_withChildren {selection : Selection}
    (replaced : ReplacedAt old new steps selection.children edited) :
    (selection.withChildren edited).children = edited := by
  cases selection with
  | field field => rfl
  | inline inline => rfl
  | spread spread =>
      -- A spread leads on to no selections, so nothing in them was replaced.
      exact absurd rfl replaced.selections_ne_nil

/-- A position that is neither around nor inside the field is not affected. -/
theorem fieldAt?_beside {other : List Nat}
    (replaced : ReplacedAt old new steps selections edited)
    (notInside : ¬ steps <+: other)
    (notAround : ¬ other <+: steps) :
    fieldAt? edited other = fieldAt? selections other := by
  induction replaced generalizing other with
  | here before after =>
      cases other with
      | nil => exact absurd List.nil_prefix notAround
      | cons index others =>
          apply fieldAt?_congr
          have apart : index ≠ before.length := by
            rintro rfl
            exact notInside ⟨others, rfl⟩
          exact getElem?_append_cons_of_ne _ _ apart
  | within before after inside inductionHypothesis =>
      cases other with
      | nil => exact absurd List.nil_prefix notAround
      | cons index others =>
          by_cases same : index = before.length
          · subst same
            rw [List.cons_prefix_cons, not_and] at notInside notAround
            cases others with
            | nil => exact absurd List.nil_prefix (notAround rfl)
            | cons next others =>
                rw [fieldAt?_through, fieldAt?_through, inside.children_withChildren]
                exact inductionHypothesis (notInside rfl) (notAround rfl)
          · apply fieldAt?_congr
            exact getElem?_append_cons_of_ne _ _ same

/-- A field around the replaced one holds the new field in its place, and where there is no field
there is none afterwards. -/
theorem rel_fieldAt?_above {above below : List Nat}
    (replaced : ReplacedAt old new steps selections edited)
    (parts : steps = above ++ below)
    (further : below ≠ []) :
    Option.Rel (HoldsInstead old new below) (fieldAt? selections above)
      (fieldAt? edited above) := by
  induction replaced generalizing above with
  | here before after =>
      cases above with
      | nil => exact .none
      | cons index above =>
          have nothing := (List.cons.inj parts).2
          exact absurd (List.append_eq_nil_iff.mp nothing.symm).2 further
  | @within before after selection inner steps inside inductionHypothesis =>
      cases above with
      | nil => exact .none
      | cons index above =>
          obtain ⟨rfl, behind⟩ := List.cons.inj parts
          cases above with
          | nil =>
              obtain rfl : steps = below := behind
              simp only [fieldAt?, List.getElem?_append_right (Nat.le_refl _), Nat.sub_self,
                List.getElem?_cons_zero]
              cases selection with
              | field field => exact .some ⟨inner, inside, rfl⟩
              | spread spread => exact .none
              | inline inline => exact .none
          | cons next above =>
              rw [fieldAt?_through, fieldAt?_through, inside.children_withChildren]
              exact inductionHypothesis behind

end ReplacedAt

/-! ## Editing -/

theorem isSome_editFieldAt? (edit : Field → Field) (selections : List Selection)
    (steps : List Nat) :
    (editFieldAt? edit selections steps).isSome = (fieldAt? selections steps).isSome := by
  cases target : fieldAt? selections steps with
  | some field =>
      obtain ⟨edited, done, _⟩ := exists_replacedAt edit target
      rw [done]
      rfl
  | none =>
      induction steps generalizing selections with
      | nil => rfl
      | cons index steps inductionHypothesis =>
          cases present : selections[index]? with
          | none => cases steps <;> simp [editFieldAt?, present]
          | some selection =>
              cases steps with
              | nil =>
                  cases selection with
                  | field field => simp [fieldAt?, present] at target
                  | spread spread => simp [editFieldAt?, present]
                  | inline inline => simp [editFieldAt?, present]
              | cons next steps =>
                  rw [fieldAt?_step, present, Option.bind_some] at target
                  rw [editFieldAt?_step, present, Option.bind_some, Option.isSome_map]
                  exact inductionHypothesis _ target

theorem editFieldAt?_single_eq_some_iff {edit : Field → Field} {selections edited : List Selection}
    {last : Nat} :
    editFieldAt? edit selections [last] = some edited ↔
      ∃ field, selections[last]? = some (.field field) ∧
        edited = selections.set last (.field (edit field)) := by
  rw [editFieldAt?]
  cases present : selections[last]? with
  | none => simp
  | some selection => cases selection <;> simp [eq_comm]

/-- Of two edits at the same place the second one meets what the first one left. -/
theorem editFieldAt?_editFieldAt? {edit : Field → Field} {selections edited : List Selection}
    {steps : List Nat}
    (again : Field → Field)
    (done : editFieldAt? edit selections steps = some edited) :
    editFieldAt? again edited steps = editFieldAt? (again ∘ edit) selections steps := by
  induction steps generalizing selections edited with
  | nil => cases done
  | cons index steps inductionHypothesis =>
      cases steps with
      | nil =>
          obtain ⟨field, present, rfl⟩ := editFieldAt?_single_eq_some_iff.mp done
          have bound := (List.getElem?_eq_some_iff.mp present).1
          rw [editFieldAt?_single present, editFieldAt?_single (List.getElem?_set_self bound),
            List.set_set]
          rfl
      | cons next steps =>
          rw [editFieldAt?_step, Option.bind_eq_some_iff] at done
          obtain ⟨selection, present, done⟩ := done
          obtain ⟨inner, below, rfl⟩ := Option.map_eq_some_iff.mp done
          have bound := (List.getElem?_eq_some_iff.mp present).1
          have target : (fieldAt? selection.children (next :: steps)).isSome = true := by
            rw [← isSome_editFieldAt? edit, below]
            rfl
          obtain ⟨field, target⟩ := Option.isSome_iff_exists.mp target
          obtain ⟨_, same, inside⟩ := exists_replacedAt edit target
          obtain rfl := Option.some.inj (below.symm.trans same)
          rw [editFieldAt?_step, editFieldAt?_step, present, List.getElem?_set_self bound]
          simp only [Option.bind_some, inside.children_withChildren, inductionHypothesis below,
            List.set_set, Selection.withChildren_withChildren]

/-! ## Documents -/

namespace Document

variable {document : Document} {primary : Definition} {others : List Definition}

theorem field?_of_definitions
    (parts : document.definitions = primary :: others)
    (indices : List Nat) :
    document.field? indices = fieldAt? primary.selections indices := by
  simp only [field?, selections?, primary?, parts, List.head?_cons, Option.map_some,
    Option.bind_eq_bind, Option.bind_some]

theorem editField?_of_definitions
    (parts : document.definitions = primary :: others)
    (edit : Field → Field) (indices : List Nat) :
    document.editField? edit indices =
      (editFieldAt? edit primary.selections indices).map fun selections =>
        { document with definitions := primary.withSelections selections :: others } := by
  simp only [editField?, selections?, primary?, parts, List.head?_cons, Option.map_some,
    Option.bind_eq_bind, Option.bind_some, mapPrimary]
  cases editFieldAt? edit primary.selections indices <;> rfl

/-- That a document differs from another in one field of its primary definition, in those around
it as far as they contain it, and in nothing else. -/
structure Replaces (indices : List Nat) (old new : Field) (document edited : Document) : Prop where
  /-- The other definitions, selections and directives stay, and so does all that is attached. -/
  frame : ∃ primary others selections,
    document.definitions = primary :: others ∧
      ReplacedAt old new indices primary.selections selections ∧
      edited = { document with definitions := primary.withSelections selections :: others }
  inside : edited.field? indices = some new
  around : ∀ above below, indices = above ++ below → below ≠ [] →
    Option.Rel (HoldsInstead old new below) (document.field? above) (edited.field? above)
  beside : ∀ other, ¬ indices <+: other → ¬ other <+: indices →
    edited.field? other = document.field? other

theorem exists_definitions {field : Field} {indices : List Nat}
    (target : document.field? indices = some field) :
    ∃ primary others, document.definitions = primary :: others := by
  cases parts : document.definitions with
  | nil => simp [field?, selections?, primary?, parts] at target
  | cons primary others => exact ⟨primary, others, rfl⟩

theorem isSome_editField? (document : Document) (edit : Field → Field) (indices : List Nat) :
    (document.editField? edit indices).isSome = (document.field? indices).isSome := by
  cases parts : document.definitions with
  | nil => simp [editField?, field?, selections?, primary?, parts]
  | cons primary others =>
      rw [editField?_of_definitions parts, field?_of_definitions parts, Option.isSome_map]
      exact isSome_editFieldAt? edit primary.selections indices

theorem exists_replaces {field : Field} {indices : List Nat}
    (edit : Field → Field)
    (target : document.field? indices = some field) :
    ∃ edited, document.editField? edit indices = some edited ∧
      document.Replaces indices field (edit field) edited := by
  obtain ⟨primary, others, parts⟩ := exists_definitions target
  rw [field?_of_definitions parts] at target
  obtain ⟨selections, done, replaced⟩ := exists_replacedAt edit target
  refine ⟨{ document with definitions := primary.withSelections selections :: others }, ?_, ?_⟩
  · rw [editField?_of_definitions parts, done]
    rfl
  · have reading : ∀ place, Document.field?
        { document with definitions := primary.withSelections selections :: others } place =
          fieldAt? selections place := by
      intro place
      rw [field?_of_definitions rfl, Definition.selections_withSelections]
    constructor
    case frame => exact ⟨primary, others, selections, parts, replaced, rfl⟩
    case inside =>
      rw [reading]
      exact fieldAt?_of_editFieldAt? target done
    case around =>
      intro above below split further
      rw [reading, field?_of_definitions parts]
      exact replaced.rel_fieldAt?_above split further
    case beside =>
      intro other notInside notAround
      rw [reading, field?_of_definitions parts]
      exact replaced.fieldAt?_beside notInside notAround

/-- A field is edited exactly where one is read, and it is the same field: afterwards the edit of
it stands in its place, whatever it is, in the fields around it, and nowhere else. Putting back what
was read changes nothing, and of two edits only their composition is left. -/
theorem field?_editField? (document : Document) (indices : List Nat) :
    (∀ edit, (document.editField? edit indices).isSome = (document.field? indices).isSome) ∧
      ∀ field, document.field? indices = some field →
        document.editField? (fun _ => field) indices = some document ∧
          ∀ edit, ∃ edited, document.editField? edit indices = some edited ∧
            document.Replaces indices field (edit field) edited ∧
            ∀ again,
              edited.editField? again indices = document.editField? (again ∘ edit) indices := by
  refine ⟨fun edit => document.isSome_editField? edit indices, fun field target => ⟨?_, ?_⟩⟩
  · obtain ⟨primary, others, parts⟩ := exists_definitions target
    rw [field?_of_definitions parts] at target
    rw [editField?_of_definitions parts, editFieldAt?_eq_self target rfl, Option.map_some,
      Definition.withSelections_selections, ← parts]
  · intro edit
    obtain ⟨edited, done, replaces⟩ := exists_replaces edit target
    refine ⟨edited, done, replaces, fun again => ?_⟩
    obtain ⟨primary, others, parts⟩ := exists_definitions target
    rw [editField?_of_definitions parts, Option.map_eq_some_iff] at done
    obtain ⟨selections, done, rfl⟩ := done
    rw [editField?_of_definitions rfl, editField?_of_definitions parts,
      Definition.selections_withSelections, editFieldAt?_editFieldAt? again done]
    simp only [Definition.withSelections_withSelections]

end Document

namespace Sample

/-- The selections of `{ node { __typename ... { type } } }`, with another field in the place of
`type`. -/
def nodeSelections (inner : Field) : List Selection :=
  [.field (.plain Name.node
    [.field (.plain Name.typename []), .inline ⟨none, [], [.field inner]⟩])]

def nestedDocument (inner : Field) : Document where
  name := "Nested"
  source := "nested.graphql"
  definitions := [.operation ⟨.query, none, [], [], nodeSelections inner, none⟩]
  refetch := none
  generated := none

end Sample

/-- The field `type` in an inline fragment makes way for the field `node`. The inline fragment is
itself no field. -/
theorem Document.field?_editField?_nested :
    (Sample.nestedDocument (.plain Name.typeKey [])).field? [0, 1, 0] =
        some (.plain Name.typeKey []) ∧
      (Sample.nestedDocument (.plain Name.typeKey [])).editField? (fun _ => .plain Name.node [])
        [0, 1, 0] = some (Sample.nestedDocument (.plain Name.node [])) ∧
      (Sample.nestedDocument (.plain Name.typeKey [])).Replaces [0, 1, 0] (.plain Name.typeKey [])
        (.plain Name.node []) (Sample.nestedDocument (.plain Name.node [])) ∧
      ((Sample.nestedDocument (.plain Name.typeKey [])).editField? id [0, 1]).isSome = false := by
  have target : (Sample.nestedDocument (.plain Name.typeKey [])).field? [0, 1, 0] =
      some (.plain Name.typeKey []) := rfl
  obtain ⟨edited, done, replaces, _⟩ :=
    ((field?_editField? _ _).2 _ target).2 fun _ => .plain Name.node []
  obtain rfl : Sample.nestedDocument (.plain Name.node []) = edited := Option.some.inj done
  exact ⟨target, done, replaces, (field?_editField? _ _).1 id⟩

end QueryPaging
