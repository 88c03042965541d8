import QueryPaging.PaginatedField
import QueryPaging.Proofs.Selections

/-!
# Marked fields and their positions

The search for marked fields meets exactly the marked fields that can be read by position, and tells
their positions with what these lead through: the response keys on the way and the type of the last
selection set. When the only marked field of some selections is edited, and neither its mark nor
its response key changes, the search meets the edited field in its place.
-/

namespace QueryPaging

/-- Some field of the document, reached through fields and inline fragments, is marked. -/
def Document.IsMarked (document : Document) : Prop :=
  ∃ indices field, document.field? indices = some field ∧
    (PassDirective.findPaginate? field.directives).isSome

/-! ## Along a position -/

/-- The response keys along a position. Inline fragments have none. -/
def keysAlong : List Selection → List Nat → List Name
  | _, [] => []
  | selections, index :: steps =>
      match selections[index]? with
      | some (.field field) => field.responseKey :: keysAlong field.selections steps
      | some (.inline inline) => keysAlong inline.selections steps
      | _ => []

/-- The type that the last selection set along a position is made on, if that of the first is
given. A field leads on to its own type, and an inline fragment to its condition if it has one. -/
def typeAlong (schema : Schema) : Option Name → List Selection → List Nat → Option Name
  | type, selections, index :: next :: steps =>
      match selections[index]? with
      | some (.field field) =>
          typeAlong schema (MarkedField.childType schema type field.name) field.selections
            (next :: steps)
      | some (.inline inline) =>
          typeAlong schema (inline.condition <|> type) inline.selections (next :: steps)
      | _ => none
  | type, _, _ => type

section Along

variable {selections : List Selection} {index next : Nat} {steps : List Nat}

theorem keysAlong_field {field : Field}
    (present : selections[index]? = some (.field field)) :
    keysAlong selections (index :: steps) = field.responseKey :: keysAlong field.selections steps := by
  rw [keysAlong, present]

theorem keysAlong_inline {inline : InlineFragment}
    (present : selections[index]? = some (.inline inline)) :
    keysAlong selections (index :: steps) = keysAlong inline.selections steps := by
  rw [keysAlong, present]

variable (schema : Schema) (type : Option Name)

theorem typeAlong_field {field : Field}
    (present : selections[index]? = some (.field field)) :
    typeAlong schema type selections (index :: next :: steps) =
      typeAlong schema (MarkedField.childType schema type field.name) field.selections
        (next :: steps) := by
  rw [typeAlong, present]

theorem typeAlong_inline {inline : InlineFragment}
    (present : selections[index]? = some (.inline inline)) :
    typeAlong schema type selections (index :: next :: steps) =
      typeAlong schema (inline.condition <|> type) inline.selections (next :: steps) := by
  rw [typeAlong, present]

end Along

namespace MarkedField

/-- A position with its first index counted from somewhere else. -/
def shift (start : Nat) : List Nat → List Nat
  | [] => []
  | index :: steps => (start + index) :: steps

@[simp]
theorem shift_zero (steps : List Nat) :
    shift 0 steps = steps := by
  cases steps <;> simp [shift]

/-! ## The search, case by case -/

section Search

variable (schema : Schema) (parent : Option Name) (path : List Name) (indices : List Nat)

@[simp]
theorem inSelections_nil (index : Nat) :
    inSelections schema parent path indices index [] = [] := by
  rw [inSelections]

theorem inSelections_cons (index : Nat) (selection : Selection) (others : List Selection) :
    inSelections schema parent path indices index (selection :: others) =
      inSelection schema parent path (indices ++ [index]) selection
        ++ inSelections schema parent path indices (index + 1) others := by
  rw [inSelections]

theorem inSelection_field (field : Field) :
    inSelection schema parent path indices (.field field) =
      ofField field parent (path ++ [field.responseKey]) indices
        ++ inSelections schema (childType schema parent field.name)
          (path ++ [field.responseKey]) indices 0 field.selections := by
  cases field
  rw [inSelection]

theorem inSelection_inline (inline : InlineFragment) :
    inSelection schema parent path indices (.inline inline) =
      inSelections schema (inline.condition <|> parent) path indices 0 inline.selections := by
  cases inline
  rw [inSelection]

@[simp]
theorem inSelection_spread (spread : Spread) :
    inSelection schema parent path indices (.spread spread) = [] := by
  rw [inSelection]

theorem inSelections_append (index : Nat) (initial suffix : List Selection) :
    inSelections schema parent path indices index (initial ++ suffix) =
      inSelections schema parent path indices index initial
        ++ inSelections schema parent path indices (index + initial.length) suffix := by
  induction initial generalizing index with
  | nil => simp
  | cons selection others inductionHypothesis =>
      rw [List.cons_append, inSelections_cons, inSelections_cons, inductionHypothesis,
        List.append_assoc, List.length_cons, Nat.add_assoc, Nat.add_comm 1]

end Search

theorem mem_ofField_iff {found : MarkedField} {field : Field} {parent : Option Name}
    {path : List Name} {indices : List Nat} :
    found ∈ ofField field parent path indices ↔
      ∃ mark, PassDirective.findPaginate? field.directives = some mark ∧
        found = ⟨field, mark, parent, path, indices⟩ := by
  unfold ofField
  cases PassDirective.findPaginate? field.directives <;> simp

/-! ## Positions -/

/-- A position under the first of some selections, as a position among all of them. -/
theorem fieldAt?_cons_children (selection : Selection) (others : List Selection)
    (steps : List Nat) {field : Field}
    (target : fieldAt? selection.children steps = some field) :
    fieldAt? (selection :: others) (0 :: steps) = some field := by
  cases steps with
  | nil => cases target
  | cons next steps => simpa [fieldAt?_step] using target

/-- A position behind the first of some selections, as a position among all of them. -/
theorem fieldAt?_cons_succ (selection : Selection) (others : List Selection)
    (index : Nat) (steps : List Nat) :
    fieldAt? (selection :: others) ((index + 1) :: steps) = fieldAt? others (index :: steps) := by
  cases steps with
  | nil => simp [fieldAt?]
  | cons next steps => simp [fieldAt?_step]

/-- What the search is to find: a marked field at its position. -/
def StandsIn (selections : List Selection) (indices : List Nat) (index : Nat)
    (found : MarkedField) : Prop :=
  ∃ steps, found.indices = indices ++ shift index steps ∧
    fieldAt? selections steps = some found.field ∧
    PassDirective.findPaginate? found.field.directives = some found.mark

theorem StandsIn.of_children (selection : Selection) {others : List Selection}
    {indices : List Nat} {index : Nat} {found : MarkedField}
    (inside : StandsIn selection.children (indices ++ [index]) 0 found) :
    StandsIn (selection :: others) indices index found := by
  obtain ⟨steps, position, target, marked⟩ := inside
  refine ⟨0 :: steps, ?_, fieldAt?_cons_children selection others steps target, marked⟩
  rw [position, shift_zero]
  simp [shift]

theorem StandsIn.of_others {selection : Selection} {others : List Selection}
    {indices : List Nat} {index : Nat} {found : MarkedField}
    (later : StandsIn others indices (index + 1) found) :
    StandsIn (selection :: others) indices index found := by
  obtain ⟨steps, position, target, marked⟩ := later
  cases steps with
  | nil => cases target
  | cons next steps =>
      refine ⟨(next + 1) :: steps, ?_, by rwa [fieldAt?_cons_succ], marked⟩
      rw [position, shift, shift, Nat.add_right_comm, Nat.add_assoc]

/-- What the search meets stands where the search says. -/
theorem standsIn_of_mem_inSelections
    {schema : Schema} {selections : List Selection} {found : MarkedField} :
    ∀ {parent : Option Name} {path : List Name} {indices : List Nat} {index : Nat},
      found ∈ inSelections schema parent path indices index selections →
        StandsIn selections indices index found := by
  induction selections using selectionsInduction with
  | nil =>
      intro parent path indices index member
      simp at member
  | field field others below behind =>
      intro parent path indices index member
      rw [inSelections_cons, inSelection_field, List.mem_append, List.mem_append] at member
      rcases member with (here | inside) | later
      · obtain ⟨mark, marked, rfl⟩ := mem_ofField_iff.mp here
        exact ⟨[0], by simp [shift], by simp [fieldAt?], marked⟩
      · exact (below inside).of_children (.field field)
      · exact (behind later).of_others
  | spread spread others behind =>
      intro parent path indices index member
      rw [inSelections_cons, inSelection_spread, List.nil_append] at member
      exact (behind member).of_others
  | inline inline others below behind =>
      intro parent path indices index member
      rw [inSelections_cons, inSelection_inline, List.mem_append] at member
      rcases member with inside | later
      · exact (below inside).of_children (.inline inline)
      · exact (behind later).of_others

/-- The search in one selection reaches what the selection leads on to. -/
theorem exists_mem_inSelection_of_children {schema : Schema} {selection : Selection}
    {parent : Option Name} {path : List Name} {indices : List Nat}
    {property : MarkedField → Prop}
    (below : ∀ (inner : Option Name) (way : List Name),
      ∃ found ∈ inSelections schema inner way indices 0 selection.children, property found) :
    ∃ found ∈ inSelection schema parent path indices selection, property found := by
  cases selection with
  | field field =>
      obtain ⟨found, member, holds⟩ := below (childType schema parent field.name)
        (path ++ [field.responseKey])
      rw [inSelection_field]
      exact ⟨found, List.mem_append_right _ member, holds⟩
  | spread spread =>
      obtain ⟨found, member, _⟩ := below none []
      simp [Selection.children] at member
  | inline inline =>
      rw [inSelection_inline]
      exact below _ _

/-- The search does not miss the selection at an index. -/
theorem mem_inSelections_of_getElem? {schema : Schema} {selections : List Selection}
    {selection : Selection} {position : Nat} {found : MarkedField}
    {parent : Option Name} {path : List Name} {indices : List Nat} {index : Nat}
    (present : selections[position]? = some selection)
    (member : found ∈
      inSelection schema parent path (indices ++ [index + position]) selection) :
    found ∈ inSelections schema parent path indices index selections := by
  obtain ⟨inside, value⟩ := List.getElem?_eq_some_iff.mp present
  have parts : selections =
      selections.take position ++ selection :: selections.drop (position + 1) := by
    rw [← value, List.getElem_cons_drop, List.take_append_drop]
  have before : (selections.take position).length = position := by
    rw [List.length_take]
    omega
  rw [parts, inSelections_append, inSelections_cons, before]
  exact List.mem_append_right _ (List.mem_append_left _ member)

/-- A marked field is met with all that its position leads through. -/
theorem mem_inSelections_of_fieldAt? (schema : Schema) {field : Field} {mark : Directive}
    (marked : PassDirective.findPaginate? field.directives = some mark) :
    ∀ {steps : List Nat} {selections : List Selection},
      fieldAt? selections steps = some field →
      ∀ (parent : Option Name) (path : List Name) (indices : List Nat) (index : Nat),
        ⟨field, mark, typeAlong schema parent selections steps, path ++ keysAlong selections steps,
          indices ++ shift index steps⟩ ∈ inSelections schema parent path indices index selections
  | [], _, target => by cases target
  | [last], _, target => by
      intro parent path indices index
      have present := fieldAt?_single_eq_some_iff.mp target
      refine mem_inSelections_of_getElem? present ?_
      rw [inSelection_field, keysAlong_field present]
      exact List.mem_append_left _ (mem_ofField_iff.mpr ⟨mark, marked, rfl⟩)
  | position :: next :: steps, _, target => by
      intro parent path indices index
      rw [fieldAt?_step, Option.bind_eq_some_iff] at target
      obtain ⟨selection, present, inside⟩ := target
      have place : indices ++ shift index (position :: next :: steps) =
          indices ++ [index + position] ++ shift 0 (next :: steps) := by
        rw [shift_zero, shift, List.append_assoc, List.singleton_append]
      refine mem_inSelections_of_getElem? present ?_
      rw [place]
      cases selection with
      | field body =>
          rw [inSelection_field, keysAlong_field present, typeAlong_field schema parent present,
            List.append_cons path _ (keysAlong _ _)]
          exact List.mem_append_right _ (mem_inSelections_of_fieldAt? schema marked inside _ _ _ _)
      | inline body =>
          rw [inSelection_inline, keysAlong_inline present, typeAlong_inline schema parent present]
          exact mem_inSelections_of_fieldAt? schema marked inside _ _ _ _
      | spread body => simp [Selection.children] at inside

/-- The search meets every marked field that can be read by position, and tells its position. -/
theorem exists_mem_inSelections (schema : Schema) {field : Field} {mark : Directive}
    (marked : PassDirective.findPaginate? field.directives = some mark)
    {steps : List Nat} {selections : List Selection}
    (target : fieldAt? selections steps = some field)
    (parent : Option Name) (path : List Name) (indices : List Nat) (index : Nat) :
    ∃ found ∈ inSelections schema parent path indices index selections,
      found.indices = indices ++ shift index steps :=
  ⟨_, mem_inSelections_of_fieldAt? schema marked target parent path indices index, rfl⟩

/-- A marked field that can be read by position is not missed by the search. -/
theorem inSelections_ne_nil {schema : Schema} {field : Field} {mark : Directive}
    {steps : List Nat} {selections : List Selection}
    (marked : PassDirective.findPaginate? field.directives = some mark)
    (target : fieldAt? selections steps = some field)
    (parent : Option Name) (path : List Name) (indices : List Nat) (index : Nat) :
    inSelections schema parent path indices index selections ≠ [] := by
  obtain ⟨found, member, _⟩ :=
    exists_mem_inSelections schema marked target parent path indices index
  exact List.ne_nil_of_mem member

/-! ## Selections without marks -/

/-- No field of the selections is marked, whether it stands among them or below. -/
def Unmarked (selections : List Selection) : Prop :=
  ∀ steps field, fieldAt? selections steps = some field →
    PassDirective.findPaginate? field.directives = none

/-- Whether the search meets anything depends on the selections alone. -/
theorem inSelections_eq_nil_iff {schema : Schema} {selections : List Selection}
    {parent : Option Name} {path : List Name} {indices : List Nat} {index : Nat} :
    inSelections schema parent path indices index selections = [] ↔ Unmarked selections := by
  constructor
  · intro empty steps field target
    cases marked : PassDirective.findPaginate? field.directives with
    | none => rfl
    | some mark => exact absurd empty (inSelections_ne_nil marked target parent path indices index)
  · intro unmarked
    apply List.eq_nil_iff_forall_not_mem.mpr
    intro found member
    obtain ⟨steps, _, target, marked⟩ := standsIn_of_mem_inSelections member
    rw [unmarked steps _ target] at marked
    cases marked

theorem unmarked_nil :
    Unmarked [] := by
  intro steps field target
  simp at target

theorem unmarked_cons_iff {selection : Selection} {others : List Selection} :
    Unmarked (selection :: others) ↔
      (∀ field, selection = .field field →
        PassDirective.findPaginate? field.directives = none) ∧
      Unmarked selection.children ∧ Unmarked others := by
  constructor
  · intro unmarked
    refine ⟨fun field same => unmarked [0] field ?_, fun steps field target => ?_,
      fun steps field target => ?_⟩
    · exact fieldAt?_single_eq_some_iff.mpr (by simp [same])
    · exact unmarked (0 :: steps) field
        (fieldAt?_cons_children selection others steps target)
    · cases steps with
      | nil => cases target
      | cons index steps =>
          exact unmarked ((index + 1) :: steps) field (by rwa [fieldAt?_cons_succ])
  · rintro ⟨here, below, behind⟩ steps field target
    match steps with
    | [] => cases target
    | [0] =>
        have present := fieldAt?_single_eq_some_iff.mp target
        exact here field (by simpa using present)
    | 0 :: next :: steps =>
        rw [fieldAt?_step] at target
        exact below (next :: steps) field target
    | (index + 1) :: steps =>
        rw [fieldAt?_cons_succ] at target
        exact behind (index :: steps) field target

theorem unmarked_of_single {schema : Schema} {selections : List Selection}
    {steps : List Nat} {field : Field} {found : MarkedField}
    {parent : Option Name} {path : List Name} {indices : List Nat}
    (marked : (PassDirective.findPaginate? field.directives).isSome)
    (target : fieldAt? selections steps = some field)
    (only : inSelections schema parent path indices 0 selections = [found]) :
    Unmarked field.selections := by
  intro below inner targetBelow
  cases markedBelow : PassDirective.findPaginate? inner.directives with
  | none => rfl
  | some inside =>
      obtain ⟨mark, isMark⟩ := Option.isSome_iff_exists.mp marked
      have further : below ≠ [] := by
        rintro rfl
        cases targetBelow
      obtain ⟨first, memberFirst, standsFirst⟩ :=
        exists_mem_inSelections schema isMark target parent path indices 0
      obtain ⟨second, memberSecond, standsSecond⟩ :=
        exists_mem_inSelections schema markedBelow
          ((fieldAt?_append target further).trans targetBelow) parent path indices 0
      rw [only, List.mem_singleton] at memberFirst memberSecond
      rw [memberFirst, shift_zero] at standsFirst
      rw [memberSecond, shift_zero, standsFirst] at standsSecond
      exact absurd (List.self_eq_append_right.mp (List.append_cancel_left standsSecond)) further

/-! ## Editing the marked field -/

/-- What an edit of a marked field leaves alone, so that the field is still found where it was and
nothing else is found below it. -/
structure KeepsMark (edit : Field → Field) (field : Field) : Prop where
  aliasName : (edit field).aliasName = field.aliasName
  name : (edit field).name = field.name
  directives : (edit field).directives = field.directives
  unmarked : Unmarked (edit field).selections

/-- The selections before an index, the one at the index, and those behind it. -/
theorem split_at_index {selections : List Selection} {selection : Selection} {position : Nat}
    (present : selections[position]? = some selection) :
    ∃ initial suffix, selections = initial ++ selection :: suffix ∧
      ∀ replacement,
        selections.set position replacement = initial ++ replacement :: suffix := by
  obtain ⟨inside, value⟩ := List.getElem?_eq_some_iff.mp present
  refine ⟨selections.take position, selections.drop (position + 1), ?_, fun replacement => ?_⟩
  · rw [← value, List.getElem_cons_drop, List.take_append_drop]
  · rw [List.set_eq_take_append_cons_drop, if_pos inside]

/-- The search after a selection was replaced, if nothing was met outside of it. -/
theorem inSelections_set {schema : Schema} {selections : List Selection}
    {selection replacement : Selection} {position : Nat} {found refound : MarkedField}
    {parent : Option Name} {path : List Name} {indices : List Nat} {index : Nat}
    (present : selections[position]? = some selection)
    (met : ∀ indices, inSelection schema parent path indices selection ≠ [])
    (only : inSelections schema parent path indices index selections = [found])
    (again : ∀ indices, inSelection schema parent path indices selection = [found] →
      inSelection schema parent path indices replacement = [refound]) :
    inSelections schema parent path indices index (selections.set position replacement) =
      [refound] := by
  obtain ⟨initial, suffix, parts, replaced⟩ := split_at_index present
  rw [parts, inSelections_append, inSelections_cons] at only
  rw [replaced, inSelections_append, inSelections_cons]
  obtain ⟨before, rest⟩ | ⟨_, rest⟩ := List.append_eq_singleton_iff.mp only
  · obtain ⟨here, _⟩ | ⟨here, behind⟩ := List.append_eq_singleton_iff.mp rest
    · exact absurd here (met _)
    · rw [before, behind, again _ here]
      rfl
  · exact absurd (List.append_eq_nil_iff.mp rest).1 (met _)

/-- When the only marked field is edited, the search meets the edited field in its place. -/
theorem inSelections_editFieldAt? {schema : Schema} {edit : Field → Field} {field : Field}
    {mark : Directive}
    (marked : PassDirective.findPaginate? field.directives = some mark)
    (keeps : KeepsMark edit field) :
    ∀ {steps : List Nat} {selections edited : List Selection} {found : MarkedField}
      {parent : Option Name} {path : List Name} {indices : List Nat} {index : Nat},
      fieldAt? selections steps = some field →
      editFieldAt? edit selections steps = some edited →
      inSelections schema parent path indices index selections = [found] →
        inSelections schema parent path indices index edited = [{ found with field := edit field }]
  | [], _, _, _, _, _, _, _, target, _, _ => by cases target
  | [last], selections, edited, found, parent, path, indices, index, target, done, only => by
      have present := fieldAt?_single_eq_some_iff.mp target
      rw [editFieldAt?_single present] at done
      cases done
      refine inSelections_set present ?_ only ?_
      · intro indices
        rw [inSelection_field, ofField, marked]
        simp
      · intro indices here
        have sameKey : (edit field).responseKey = field.responseKey := by
          rw [FieldOf.responseKey, keeps.aliasName, keeps.name, FieldOf.responseKey]
        have bare : ∀ parent path indices,
            inSelections schema parent path indices 0 (edit field).selections = [] :=
          fun _ _ _ => inSelections_eq_nil_iff.mpr keeps.unmarked
        rw [inSelection_field, ofField, marked, List.cons_append, List.nil_append,
          List.cons.injEq] at here
        rw [inSelection_field, ofField, keeps.directives, marked, bare, sameKey, ← here.1]
        rfl
  | position :: next :: steps, selections, edited, found, parent, path, indices, index,
      target, done, only => by
      rw [fieldAt?_step, Option.bind_eq_some_iff] at target
      obtain ⟨selection, present, inside⟩ := target
      rw [editFieldAt?_step, present, Option.bind_some, Option.map_eq_some_iff] at done
      obtain ⟨inner, editedInside, rfl⟩ := done
      have met : ∀ parent path indices,
          inSelections schema parent path indices 0 selection.children ≠ [] :=
        fun parent path indices => inSelections_ne_nil marked inside parent path indices 0
      refine inSelections_set present ?_ only ?_
      · intro indices
        obtain ⟨refound, member, _⟩ := exists_mem_inSelection_of_children fun inner way =>
          exists_mem_inSelections schema marked inside inner way indices 0
        exact List.ne_nil_of_mem member
      · intro indices here
        cases selection with
        | field body =>
            rw [inSelection_field] at here
            obtain ⟨itself, below⟩ | ⟨_, below⟩ := List.append_eq_singleton_iff.mp here
            · rw [Selection.withChildren, inSelection_field]
              have bare : ofField { body with selections := inner } parent
                  (path ++ [body.responseKey]) indices = [] := by
                unfold ofField at itself ⊢
                split at itself
                · cases itself
                · next none => rw [none]
              exact (congrArg (· ++ _) bare).trans
                (inSelections_editFieldAt? marked keeps inside editedInside below)
            · exact absurd below (met _ _ _)
        | spread body => exact absurd inside (by simp [Selection.children])
        | inline body =>
            rw [inSelection_inline] at here
            rw [Selection.withChildren, inSelection_inline]
            exact inSelections_editFieldAt? marked keeps inside editedInside here

end MarkedField

end QueryPaging
