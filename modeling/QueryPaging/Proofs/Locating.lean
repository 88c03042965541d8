import Mathlib.Data.List.Sort
import QueryPaging.Proofs.Finding

/-!
# Locating the paginated field

The search keeps three things in step: the position of a field, the response keys that lead to it
and the type that declares it. All that it tells of a field can be read off the document by the
position alone.

- `Document.keysAlong` and `Document.typeAlong`: what a position leads through.
- `Document.ListsMarks`: the positions of the marked fields, a field before those below it.
- `PaginatedField.IsLocated`: what is to come of a document with given marks.
- `PaginatedField.find_eq_iff_isLocated`: the search comes to that, and to nothing else.
-/

namespace QueryPaging

namespace MarkedField

variable {schema : Schema} {selections : List Selection} {parent : Option Name}
  {path : List Name} {indices : List Nat} {index : Nat} {found : MarkedField}

theorem mem_inDefinition_of_fieldAt? {field : Field} {mark : Directive} {definition : Definition}
    {place : List Nat} (schema : Schema)
    (marked : PassDirective.findPaginate? field.directives = some mark)
    (target : fieldAt? definition.selections place = some field) :
    ⟨field, mark, typeAlong schema (rootType schema definition) definition.selections place,
      keysAlong definition.selections place, place⟩ ∈ inDefinition schema definition := by
  have met := mem_inSelections_of_fieldAt? schema marked target (rootType schema definition) [] [] 0
  rwa [List.nil_append, List.nil_append, shift_zero] at met

/-! ## The order of the search -/

theorem exists_steps_of_mem_inSelections
    (member : found ∈ inSelections schema parent path indices index selections) :
    ∃ position steps, found.indices = indices ++ (index + position) :: steps := by
  obtain ⟨steps, place, target, _⟩ := standsIn_of_mem_inSelections member
  cases steps with
  | nil => cases target
  | cons position steps => exact ⟨position, steps, place⟩

theorem exists_steps_of_mem_inSelection {selection : Selection}
    (member : found ∈ inSelection schema parent path indices selection) :
    ∃ steps, found.indices = indices ++ steps := by
  cases selection with
  | field field =>
      rw [inSelection_field, List.mem_append] at member
      rcases member with here | below
      · obtain ⟨mark, _, rfl⟩ := mem_ofField_iff.mp here
        exact ⟨[], (List.append_nil _).symm⟩
      · obtain ⟨position, steps, place⟩ := exists_steps_of_mem_inSelections below
        exact ⟨_, place⟩
  | spread spread => simp at member
  | inline inline =>
      rw [inSelection_inline] at member
      obtain ⟨position, steps, place⟩ := exists_steps_of_mem_inSelections member
      exact ⟨_, place⟩

/-- That the positions of what was met are in lexicographic order. -/
def InOrder (found : List MarkedField) : Prop :=
  found.Pairwise fun first second => first.indices < second.indices

/-- What is met in a selection stands before what is met in the selections behind it. -/
theorem inOrder_cons {selection : Selection} {others : List Selection}
    (here : InOrder (inSelection schema parent path (indices ++ [index]) selection))
    (behind : InOrder (inSelections schema parent path indices (index + 1) others)) :
    InOrder (inSelections schema parent path indices index (selection :: others)) := by
  rw [InOrder, inSelections_cons, List.pairwise_append]
  refine ⟨here, behind, fun first isFirst second isSecond => ?_⟩
  obtain ⟨steps, isHere⟩ := exists_steps_of_mem_inSelection isFirst
  obtain ⟨position, later, isBehind⟩ := exists_steps_of_mem_inSelections isSecond
  rw [isHere, isBehind, List.append_assoc]
  exact List.append_left_lt (List.Lex.rel (by omega))

/-- The search meets the marked fields in the order of their positions. -/
theorem inOrder_inSelections (selections : List Selection) :
    ∀ {parent : Option Name} {path : List Name} {indices : List Nat} {index : Nat},
      InOrder (inSelections schema parent path indices index selections) := by
  induction selections using selectionsInduction with
  | nil =>
      intro parent path indices index
      rw [inSelections_nil]
      exact .nil
  | field field others below behind =>
      intro parent path indices index
      refine inOrder_cons ?_ behind
      rw [InOrder, inSelection_field, List.pairwise_append]
      refine ⟨?_, below, fun first isFirst second isSecond => ?_⟩
      · unfold ofField
        split
        · exact List.pairwise_singleton _ _
        · exact .nil
      · -- The position of a field starts those of the fields below it.
        obtain ⟨mark, _, rfl⟩ := mem_ofField_iff.mp isFirst
        obtain ⟨position, steps, isBelow⟩ := exists_steps_of_mem_inSelections isSecond
        rw [isBelow]
        nth_rewrite 1 [← List.append_nil (indices ++ [index])]
        exact List.append_left_lt (List.nil_lt_cons _ _)
  | spread spread others behind =>
      intro parent path indices index
      refine inOrder_cons ?_ behind
      rw [inSelection_spread]
      exact .nil
  | inline inline others below behind =>
      intro parent path indices index
      refine inOrder_cons ?_ behind
      rw [inSelection_inline]
      exact below

/-- Fields that are met at one position are one. -/
theorem InOrder.eq_of_indices_eq {marked : List MarkedField} {first second : MarkedField}
    (inOrder : InOrder marked)
    (isFirst : first ∈ marked)
    (isSecond : second ∈ marked)
    (same : first.indices = second.indices) :
    first = second := by
  have distinct : (marked.map (·.indices)).Nodup := by
    refine List.pairwise_map.mpr (List.Pairwise.imp (fun less equal => ?_) inOrder)
    rw [equal] at less
    exact List.lt_irrefl _ less
  exact List.inj_on_of_nodup_map distinct isFirst isSecond same

end MarkedField

/-! ## Marks -/

namespace PassDirective

/-- What is wrong with one argument of a mark. -/
def argumentFlaw? (argument : Argument) : Option DirectiveCause :=
  if argument.name.text ≠ "pageSize" then some (.unknownArgument argument.name)
  else if argument.value.int32?.isNone then some .pageSizeNotInteger
  else none

/-- What is wrong with a mark, by the first of its arguments that has a flaw. -/
def markFlaw? (mark : Directive) : Option DirectiveCause :=
  mark.arguments.findSome? argumentFlaw?

/-- The page size that a mark asks for, which is the last one it has. -/
def markedSize? (mark : Directive) : Option Value :=
  mark.arguments.getLast?.map (·.value)

theorem pageSizeStep_eq (pageSize : Option Value) (argument : Argument) :
    pageSizeStep pageSize argument =
      match argumentFlaw? argument with
      | some cause => .error (.malformedDirective cause)
      | none => .ok (some argument.value) := by
  unfold pageSizeStep argumentFlaw?
  by_cases named : argument.name.text = "pageSize"
  · cases argument.value.int32? <;> simp [named]
  · simp [named]

theorem foldlM_pageSizeStep (arguments : List Argument) (pageSize : Option Value) :
    arguments.foldlM pageSizeStep pageSize =
      match arguments.findSome? argumentFlaw? with
      | some cause => .error (.malformedDirective cause)
      | none => .ok ((arguments.getLast?.map (·.value)).or pageSize) := by
  induction arguments generalizing pageSize with
  | nil => rfl
  | cons argument others inductionHypothesis =>
      rw [List.foldlM_cons, pageSizeStep_eq, List.findSome?_cons]
      cases argumentFlaw? argument with
      | some cause => rfl
      | none =>
          refine (inductionHypothesis (some argument.value)).trans ?_
          rw [List.getLast?_cons]
          cases others.getLast? <;> rfl

theorem name_of_findPaginate? {directives : List Directive} {mark : Directive}
    (found : findPaginate? directives = some mark) :
    mark.name = paginateName := by
  have sameText := List.find?_some found
  exact Name.eq_of_text_eq (eq_of_beq sameText)

theorem pageSizeOf_eq {mark : Directive}
    (named : mark.name = paginateName) :
    PaginatedField.pageSizeOf mark =
      match markFlaw? mark with
      | some cause => .error (.malformedDirective cause)
      | none => .ok (markedSize? mark) := by
  unfold PaginatedField.pageSizeOf decode markFlaw? markedSize?
  rw [if_pos named, foldlM_pageSizeStep]
  cases mark.arguments.findSome? argumentFlaw? with
  | some cause => rfl
  | none => simp [bind, Except.bind, pure, Except.pure]

end PassDirective

/-! ## Marked fields of a document -/

namespace Document

/-- The mark on the field at a position, if there is such a field and it is marked. -/
def markAt? (document : Document) (place : List Nat) : Option Directive :=
  (document.field? place).bind fun field => PassDirective.findPaginate? field.directives

def keysAlong (document : Document) (place : List Nat) : List Name :=
  QueryPaging.keysAlong (document.selections?.getD []) place

/-- The type that declares the field at a position, followed from the query root or from the
condition of the fragment. -/
def typeAlong (schema : Schema) (document : Document) (place : List Nat) : Option Name :=
  QueryPaging.typeAlong schema (document.primary?.bind (MarkedField.rootType schema))
    (document.selections?.getD []) place

/-- That positions are those of all marked fields in pre-order: each field before those below it,
and these before the fields behind it. -/
structure ListsMarks (document : Document) (places : List (List Nat)) : Prop where
  ordered : places.Pairwise (· < ·)
  complete : ∀ place, place ∈ places ↔ (document.markAt? place).isSome = true

/-- There is only one such list. -/
theorem ListsMarks.unique {document : Document} {places others : List (List Nat)}
    (lists : document.ListsMarks places)
    (alsoLists : document.ListsMarks others) :
    others = places :=
  List.Pairwise.eq_of_mem_iff alsoLists.ordered lists.ordered fun place =>
    (alsoLists.complete place).trans (lists.complete place).symm

/-- The marked fields of a document as the search meets them. -/
def marked (schema : Schema) (document : Document) : List MarkedField :=
  (document.primary?.map (MarkedField.inDefinition schema)).getD []

/-- That what the search told of a field is what its position leads through. -/
structure IsTold (schema : Schema) (document : Document) (found : MarkedField) : Prop where
  field : document.field? found.indices = some found.field
  mark : PassDirective.findPaginate? found.field.directives = some found.mark
  path : found.path = document.keysAlong found.indices
  type : found.parentType = document.typeAlong schema found.indices

variable {schema : Schema} {document : Document} {found : MarkedField}

theorem mem_marked_iff :
    found ∈ document.marked schema ↔
      ∃ definition, document.primary? = some definition ∧
        found ∈ MarkedField.inDefinition schema definition := by
  unfold marked
  cases document.primary? <;> simp

theorem field?_of_primary? {definition : Definition}
    (isPrimary : document.primary? = some definition)
    (place : List Nat) :
    document.field? place = fieldAt? definition.selections place := by
  rw [field?, selections?, isPrimary]
  rfl

theorem keysAlong_of_primary? {definition : Definition}
    (isPrimary : document.primary? = some definition)
    (place : List Nat) :
    document.keysAlong place = QueryPaging.keysAlong definition.selections place := by
  rw [keysAlong, selections?, isPrimary]
  rfl

theorem isTold_of_mem_marked
    (member : found ∈ document.marked schema) :
    document.IsTold schema found := by
  obtain ⟨definition, isPrimary, isMet⟩ := mem_marked_iff.mp member
  obtain ⟨steps, place, target, isMarked⟩ := MarkedField.standsIn_of_mem_inSelections isMet
  rw [List.nil_append, MarkedField.shift_zero] at place
  -- What stands at the position is met as well, and the position tells that it is the same.
  have again := MarkedField.mem_inDefinition_of_fieldAt? schema isMarked target
  have inOrder : MarkedField.InOrder (MarkedField.inDefinition schema definition) :=
    MarkedField.inOrder_inSelections definition.selections
  have same := inOrder.eq_of_indices_eq isMet again place
  constructor
  case field => rw [field?_of_primary? isPrimary, place, target]
  case mark => exact isMarked
  case path =>
    rw [keysAlong_of_primary? isPrimary, place]
    exact congrArg MarkedField.path same
  case type =>
    rw [typeAlong, selections?, isPrimary, place]
    exact congrArg MarkedField.parentType same

/-- The search meets all marked fields, in pre-order. -/
theorem listsMarks_marked (schema : Schema) (document : Document) :
    document.ListsMarks ((document.marked schema).map (·.indices)) := by
  constructor
  case ordered =>
    rw [List.pairwise_map]
    unfold marked
    cases document.primary? with
    | none => exact .nil
    | some definition => exact MarkedField.inOrder_inSelections definition.selections
  case complete =>
    intro place
    constructor
    · intro member
      obtain ⟨found, isMet, rfl⟩ := List.mem_map.mp member
      have told := isTold_of_mem_marked isMet
      rw [markAt?, told.field, Option.bind_some, told.mark]
      rfl
    · intro isMarked
      obtain ⟨mark, isMark⟩ := Option.isSome_iff_exists.mp isMarked
      obtain ⟨field, target, isMark⟩ := Option.bind_eq_some_iff.mp isMark
      cases isPrimary : document.primary? with
      | none =>
          rw [field?, selections?, isPrimary] at target
          cases target
      | some definition =>
          rw [field?_of_primary? isPrimary] at target
          have isMet := MarkedField.mem_inDefinition_of_fieldAt? schema isMark target
          exact List.mem_map.mpr ⟨_, mem_marked_iff.mpr ⟨definition, isPrimary, isMet⟩, rfl⟩

end Document

/-! ## The outcome -/

namespace PaginatedField

/-- What is to come of the search in a document whose marked fields stand at given places. -/
inductive IsLocated (schema : Schema) (document : Document) :
    List (List Nat) → Except Fault (Option PaginatedField) → Prop where
  | unmarked : IsLocated schema document [] (.ok none)
  | multiple {first second : List Nat} {others : List (List Nat)} :
      IsLocated schema document (first :: second :: others)
        (.error (.multipleFields (document.keysAlong first) (document.keysAlong second)))
  | unsupported {place : List Nat} {kind : OperationKind}
      (isKind : document.kind? = some (.operation kind))
      (notQuery : kind ≠ .query) :
      IsLocated schema document [place] (.error (.unsupportedOperation kind))
  | malformed {place : List Nat} {mark : Directive} {cause : DirectiveCause}
      (canPage : ∀ kind, document.kind? = some (.operation kind) → kind = .query)
      (isMarked : document.markAt? place = some mark)
      (flawed : PassDirective.markFlaw? mark = some cause) :
      IsLocated schema document [place] (.error (.malformedDirective cause))
  | unknownParent {place : List Nat} {mark : Directive}
      (canPage : ∀ kind, document.kind? = some (.operation kind) → kind = .query)
      (isMarked : document.markAt? place = some mark)
      (flawless : PassDirective.markFlaw? mark = none)
      (unknown : document.typeAlong schema place = none) :
      IsLocated schema document [place]
        (.error (.unsupportedShape (QueryPaging.renderPath (document.keysAlong place))
          .unknownParent))
  | found {place : List Nat} {field : Field} {mark : Directive} {parentType : Name}
      (canPage : ∀ kind, document.kind? = some (.operation kind) → kind = .query)
      (target : document.field? place = some field)
      (isMarked : document.markAt? place = some mark)
      (flawless : PassDirective.markFlaw? mark = none)
      (declared : document.typeAlong schema place = some parentType) :
      IsLocated schema document [place] (.ok (some {
        name := field.name
        responseKey := field.responseKey
        arguments := field.arguments
        path := document.keysAlong place
        parentType
        pageSize := PassDirective.markedSize? mark
        span := field.span
        indices := place }))

/-- There is only one such outcome. -/
theorem IsLocated.unique {schema : Schema} {document : Document} {places : List (List Nat)}
    {outcome other : Except Fault (Option PaginatedField)}
    (located : IsLocated schema document places outcome)
    (also : IsLocated schema document places other) :
    outcome = other := by
  cases located <;> cases also <;> simp_all

variable {schema : Schema} {document : Document} {definition : Definition} {found : MarkedField}

theorem isLocated_of_single
    (isPrimary : document.primary? = some definition)
    (canPage : definition.canPage = true)
    (told : document.IsTold schema found) :
    IsLocated schema document [found.indices] ((ofMarked found).map some) := by
  have onlyQueries : ∀ kind, document.kind? = some (.operation kind) → kind = .query := by
    intro kind isKind
    cases definition with
    | fragment body => simp [Document.kind?, isPrimary] at isKind
    | operation body =>
        simp only [Document.kind?, isPrimary, Option.map_some, Option.some.injEq,
          DocumentKind.operation.injEq] at isKind
        rw [← isKind]
        exact eq_of_beq canPage
  have isMark : document.markAt? found.indices = some found.mark := by
    rw [Document.markAt?, told.field, Option.bind_some, told.mark]
  have named : found.mark.name = PassDirective.paginateName :=
    PassDirective.name_of_findPaginate? told.mark
  rw [ofMarked, PassDirective.pageSizeOf_eq named]
  cases flaw : PassDirective.markFlaw? found.mark with
  | some cause => exact .malformed onlyQueries isMark flaw
  | none =>
      cases parent : found.parentType with
      | none =>
          have unknown := told.type.symm.trans parent
          have outcome := IsLocated.unknownParent onlyQueries isMark flaw unknown
          rw [← told.path] at outcome
          exact outcome
      | some parentType =>
          have declared := told.type.symm.trans parent
          have outcome := IsLocated.found onlyQueries told.field isMark flaw declared
          rw [← told.path] at outcome
          exact outcome

/-- A single mark is of no use in an operation that cannot be paged through. -/
theorem isLocated_of_not_canPage
    (isPrimary : document.primary? = some definition)
    (only : MarkedField.inDefinition schema definition = [found])
    (unable : definition.canPage ≠ true) :
    IsLocated schema document [found.indices] (findIn schema definition) := by
  unfold findIn
  rw [only]
  cases definition with
  | fragment body => exact absurd rfl unable
  | operation body =>
      obtain ⟨kind, name, declarations, directives, selections, span⟩ := body
      have isKind : document.kind? = some (.operation kind) := by
        rw [Document.kind?, isPrimary]
        rfl
      cases kind with
      | query => exact absurd rfl unable
      | mutation => exact .unsupported isKind nofun
      | subscription => exact .unsupported isKind nofun

theorem isLocated_find (schema : Schema) (document : Document) :
    IsLocated schema document ((document.marked schema).map (·.indices))
      (find schema document) := by
  unfold find
  cases isPrimary : document.primary? with
  | none =>
      rw [Document.marked, isPrimary]
      exact .unmarked
  | some definition =>
      have isMarked : document.marked schema = MarkedField.inDefinition schema definition := by
        rw [Document.marked, isPrimary]
        rfl
      have told : ∀ found ∈ MarkedField.inDefinition schema definition,
          document.IsTold schema found :=
        fun _ member => Document.isTold_of_mem_marked (isMarked ▸ member)
      rw [isMarked]
      simp only
      match marked : MarkedField.inDefinition schema definition with
      | [] =>
          rw [findIn, marked]
          exact .unmarked
      | first :: second :: others =>
          rw [marked] at told
          rw [findIn, marked]
          simp only
          rw [(told first (by simp)).path, (told second (by simp)).path]
          exact .multiple
      | [found] =>
          by_cases canPage : definition.canPage = true
          · rw [findIn_of_single marked canPage]
            exact isLocated_of_single isPrimary canPage (told found (by simp [marked]))
          · exact isLocated_of_not_canPage isPrimary marked canPage

/-- The marked fields of a document have one order, and they alone tell what the search comes to:
nothing where there is none, the paths of the first two where there are several, and otherwise the
field itself, unless it stands in an operation of another kind, its mark is malformed or the type
that declares it is not known. -/
theorem find_eq_iff_isLocated (schema : Schema) (document : Document) :
    ∃ places, (∀ others, document.ListsMarks others ↔ others = places) ∧
      ∀ outcome, find schema document = outcome ↔ IsLocated schema document places outcome := by
  have lists := document.listsMarks_marked schema
  have located := isLocated_find schema document
  refine ⟨_, fun others => ⟨lists.unique, ?_⟩, fun outcome => ⟨?_, located.unique⟩⟩
  · rintro rfl
    exact lists
  · rintro rfl
    exact located

end PaginatedField

end QueryPaging
