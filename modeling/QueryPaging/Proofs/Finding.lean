import QueryPaging.Proofs.Marks

/-!
# Finding the paginated field

When a paginated field is found, when nothing is, and what is found once the field has been edited.
-/

namespace QueryPaging

/-- Whether a definition is of a kind that can be paged through. -/
def Definition.canPage : Definition → Bool
  | .operation body => body.kind == .query
  | .fragment _ => true

namespace PaginatedField

theorem ofMarked_eq_ok_iff {found : MarkedField} {field : PaginatedField} :
    ofMarked found = .ok field ↔
      ∃ pageSize parentType,
        pageSizeOf found.mark = .ok pageSize ∧ found.parentType = some parentType ∧
        field = {
          name := found.field.name
          responseKey := found.field.responseKey
          arguments := found.field.arguments
          path := found.path
          parentType
          pageSize
          span := found.field.span
          indices := found.indices } := by
  unfold ofMarked
  cases pageSizeOf found.mark with
  | error fault => simp [bind, Except.bind]
  | ok pageSize =>
      cases found.parentType with
      | none => simp [bind, Except.bind, throw, throwThe, MonadExceptOf.throw]
      | some parentType => simp [bind, Except.bind, pure, Except.pure, eq_comm]

theorem findIn_of_single {schema : Schema} {definition : Definition} {found : MarkedField}
    (only : MarkedField.inDefinition schema definition = [found])
    (able : definition.canPage = true) :
    findIn schema definition = (ofMarked found).map some := by
  unfold findIn
  rw [only]
  match definition, able with
  | .operation ⟨.query, _, _, _, _, _⟩, _ => rfl
  | .fragment _, _ => rfl

/-- A field is found just where it is the only marked one, its definition can be paged through, and
its mark and its parent type are in order. -/
theorem findIn_eq_ok_some_iff {schema : Schema} {definition : Definition}
    {field : PaginatedField} :
    findIn schema definition = .ok (some field) ↔
      ∃ found, MarkedField.inDefinition schema definition = [found] ∧
        definition.canPage = true ∧ ofMarked found = .ok field := by
  constructor
  · intro result
    match marked : MarkedField.inDefinition schema definition with
    | [] =>
        rw [findIn, marked] at result
        cases result
    | first :: second :: _ =>
        rw [findIn, marked] at result
        cases result
    | [found] =>
        have able : definition.canPage = true := by
          rw [findIn, marked] at result
          match definition, result with
          | .operation ⟨.query, _, _, _, _, _⟩, _ => rfl
          | .fragment _, _ => rfl
        rw [findIn_of_single marked able] at result
        refine ⟨found, rfl, able, ?_⟩
        cases read : ofMarked found with
        | error fault => simp [read, Except.map] at result
        | ok value => simpa [read, Except.map] using result
  · rintro ⟨found, only, able, read⟩
    rw [findIn_of_single only able, read]
    rfl

/-- Nothing is found just where no field is marked. -/
theorem findIn_eq_ok_none_iff {schema : Schema} {definition : Definition} :
    findIn schema definition = .ok none ↔
      MarkedField.inDefinition schema definition = [] := by
  constructor
  · intro result
    match marked : MarkedField.inDefinition schema definition with
    | [] => rfl
    | first :: second :: _ =>
        rw [findIn, marked] at result
        cases result
    | [found] =>
        rw [findIn, marked] at result
        have unmapped : (ofMarked found).map some ≠ .ok none := by
          cases ofMarked found <;> simp [Except.map]
        match definition, result with
        | .operation ⟨.query, _, _, _, _, _⟩, result => exact absurd result unmapped
        | .fragment _, result => exact absurd result unmapped
  · intro unmarked
    rw [findIn, unmarked]

/-- Nothing is found just in documents that are not marked. -/
theorem find_eq_ok_none_iff {schema : Schema} {document : Document} :
    find schema document = .ok none ↔ ¬ document.IsMarked := by
  unfold find Document.IsMarked Document.field? Document.selections?
  cases document.primary? with
  | none => simp
  | some definition =>
      simp only [findIn_eq_ok_none_iff, MarkedField.inDefinition,
        MarkedField.inSelections_eq_nil_iff, MarkedField.Unmarked, Option.map_some, not_exists,
        not_and]
      simp [bind, Option.isSome_iff_ne_none]

theorem find_eq_ok_some_iff {schema : Schema} {document : Document} {field : PaginatedField} :
    find schema document = .ok (some field) ↔
      ∃ definition found, document.primary? = some definition ∧
        MarkedField.inDefinition schema definition = [found] ∧
        definition.canPage = true ∧ ofMarked found = .ok field := by
  unfold find
  cases document.primary? with
  | none => simp
  | some definition => simp [findIn_eq_ok_some_iff]

/-! ## After an edit -/

theorem fieldAt?_of_single {schema : Schema} {definition : Definition} {found : MarkedField}
    (only : MarkedField.inDefinition schema definition = [found]) :
    fieldAt? definition.selections found.indices = some found.field ∧
      PassDirective.findPaginate? found.field.directives = some found.mark := by
  have member : found ∈ MarkedField.inDefinition schema definition := by simp [only]
  obtain ⟨steps, position, target, marked⟩ := MarkedField.standsIn_of_mem_inSelections member
  rw [List.nil_append, MarkedField.shift_zero] at position
  exact ⟨by rw [position, target], marked⟩

/-- The marked field of a definition whose marked field was edited. -/
theorem inDefinition_edited {schema : Schema} {definition changed : Definition}
    {edit : Field → Field} {found : MarkedField} {selections : List Selection}
    (only : MarkedField.inDefinition schema definition = [found])
    (keeps : MarkedField.KeepsMark edit found.field)
    (done : editFieldAt? edit definition.selections found.indices = some selections)
    (sameRoot : MarkedField.rootType schema changed = MarkedField.rootType schema definition)
    (replaced : changed.selections = selections) :
    MarkedField.inDefinition schema changed = [{ found with field := edit found.field }] := by
  obtain ⟨target, marked⟩ := fieldAt?_of_single only
  rw [MarkedField.inDefinition, sameRoot, replaced]
  exact MarkedField.inSelections_editFieldAt? marked keeps target done only

/-- What is read off the marked field once its arguments and selections were edited. -/
theorem ofMarked_edited {found : MarkedField} {field : PaginatedField} {edit : Field → Field}
    (read : ofMarked found = .ok field)
    (keeps : MarkedField.KeepsMark edit found.field)
    (sameSpan : (edit found.field).span = found.field.span) :
    ofMarked { found with field := edit found.field } =
      .ok { field with arguments := (edit found.field).arguments } := by
  obtain ⟨pageSize, parentType, decoded, declared, rfl⟩ := ofMarked_eq_ok_iff.mp read
  refine ofMarked_eq_ok_iff.mpr ⟨pageSize, parentType, decoded, declared, ?_⟩
  simp [FieldOf.responseKey, keeps.name, keeps.aliasName, sameSpan]

end PaginatedField

end QueryPaging
