import QueryPaging.Proofs.JsonText
import QueryPaging.Refetch.Json

/-!
# Refetch specs written and read

A spec is read back from its text as it was. What it leaves out is not written, and a start is told
by its kind alone, so a cursor may be spelled like an offset.

- `RefetchSpec.Written`: what stands under each key.
- `RefetchSpec.ofText?_render_eq`: a spec and its text.
-/

namespace QueryPaging

/-! ## Values of single fields -/

theorem Decimal.word32?_toInt (word : Int32) :
    word32? word.toInt = some word := by
  have fits : Int32.minValue.toInt ≤ word.toInt ∧ word.toInt ≤ Int32.maxValue.toInt :=
    ⟨Int32.minValue_le_toInt word, Int32.toInt_le word⟩
  rw [word32?, if_pos fits, Int32.ofInt_toInt]

theorem PagingMethod.ofWord?_word (method : PagingMethod) :
    ofWord? method.word = some method := by
  cases method <;> decide

theorem PagingDirection.ofWord?_word (direction : PagingDirection) :
    ofWord? direction.word = some direction := by
  cases direction <;> decide

theorem PageStart.ofJson?_toJson (start : PageStart) :
    ofJson? start.toJson = some start := by
  cases start with
  | cursor text => rfl
  | offset count => rw [toJson, ofJson?, Decimal.word32?_toInt, Option.map_some]

example : PageStart.ofJson? (PageStart.cursor "12").toJson = some (.cursor "12") := rfl

theorem Json.strings?_ofStrings (texts : List String) :
    (ofStrings texts).strings? = some texts := by
  change (texts.map Json.string).mapM string? = some texts
  induction texts with
  | nil => rfl
  | cons text texts inductionHypothesis =>
      rw [List.map_cons, List.mapM_cons, inductionHypothesis]
      rfl

theorem Json.isExact_ofStrings (texts : List String) :
    (ofStrings texts).IsExact := by
  apply IsExact.array
  intro item member
  obtain ⟨text, _, rfl⟩ := List.mem_map.mp member
  exact .string text

theorem PageStart.isExact_toJson (start : PageStart) :
    start.toJson.IsExact := by
  cases start with
  | cursor text => exact .string text
  | offset count => exact .integer count.toInt

theorem Json.isExact_of_mem_entry? {α : Type} {key : String} {write : α → Json} {value : Option α}
    (exact : ∀ present, (write present).IsExact)
    (entry : String × Json)
    (member : entry ∈ entry? key write value) :
    entry.2.IsExact := by
  cases value with
  | none => cases member
  | some present =>
      obtain rfl := List.mem_singleton.mp member
      exact exact present

/-! ## Fields by key -/

theorem Record.required?_eq_some {fields : List (String × Json)} {key : String} {json : Json}
    {α : Type} {read : Json → Option α} {value : α}
    (found : fields.lookup key = some json)
    (reads : read json = some value) :
    required? fields key read = some value := by
  rw [required?, found]
  exact reads

/-- A field that may be left out is read as what was written, if anything was. -/
theorem Record.defaulting?_optional? {fields : List (String × Json)} {key : String}
    {α : Type} {write : α → Json} {read : Json → Option α} {value : Option α}
    (found : fields.lookup key = value.map write)
    (reads : ∀ present, read (write present) = some present)
    (notNull : ∀ present, write present ≠ .null) :
    defaulting? fields key none (Json.optional? read) = some value := by
  rw [defaulting?, found]
  cases value with
  | none => rfl
  | some present =>
      rw [Option.map_some]
      change Json.optional? read (write present) = some (some present)
      unfold Json.optional?
      split
      · next null => exact absurd null (notNull present)
      · rw [reads, Option.map_some]

namespace RefetchSpec

/-- What stands under each key of a spec. -/
structure Written (spec : RefetchSpec) (fields : List (String × Json)) : Prop where
  path : fields.lookup "path" = some (.ofStrings spec.path)
  method : fields.lookup "method" = some (.string spec.method.word)
  pageSize : fields.lookup "pageSize" = spec.pageSize.map (.integer ·.toInt)
  embedded : fields.lookup "embedded" = some (.boolean spec.embedded)
  targetType : fields.lookup "targetType" = some (.string spec.targetType)
  paginated : fields.lookup "paginated" = some (.boolean spec.paginated)
  direction : fields.lookup "direction" = some (.string spec.direction.word)
  start : fields.lookup "start" = spec.start.map PageStart.toJson

theorem exists_fields (spec : RefetchSpec) :
    ∃ fields, spec.toJson = .object fields ∧ Record.fields? keys fields = some fields ∧
      spec.Written fields := by
  refine ⟨_, rfl, ?_, ?_⟩
  · cases spec.pageSize <;> cases spec.start <;> rfl
  · constructor
    all_goals cases spec.pageSize <;> cases spec.start <;> rfl

/-- What the keys hold is all that is read. -/
theorem ofJson?_of_written {spec : RefetchSpec} {fields : List (String × Json)}
    (known : Record.fields? keys fields = some fields)
    (written : spec.Written fields) :
    ofJson? (.object fields) = some spec := by
  have path := Record.required?_eq_some written.path (Json.strings?_ofStrings spec.path)
  have method : Record.required? fields "method"
      (fun json => json.word?.bind PagingMethod.ofWord?) = some spec.method :=
    Record.required?_eq_some written.method (PagingMethod.ofWord?_word spec.method)
  have pageSize : Record.defaulting? fields "pageSize" none
      (Json.optional? fun json => json.integer?.bind Decimal.word32?) = some spec.pageSize :=
    Record.defaulting?_optional? written.pageSize Decimal.word32?_toInt (fun _ => by simp)
  have embedded : Record.required? fields "embedded" Json.boolean? = some spec.embedded :=
    Record.required?_eq_some written.embedded rfl
  have targetType : Record.required? fields "targetType" Json.string? = some spec.targetType :=
    Record.required?_eq_some written.targetType rfl
  have paginated : Record.required? fields "paginated" Json.boolean? = some spec.paginated :=
    Record.required?_eq_some written.paginated rfl
  have direction : Record.required? fields "direction"
      (fun json => json.word?.bind PagingDirection.ofWord?) = some spec.direction :=
    Record.required?_eq_some written.direction (PagingDirection.ofWord?_word spec.direction)
  have start : Record.defaulting? fields "start" none (Json.optional? PageStart.ofJson?) =
      some spec.start :=
    Record.defaulting?_optional? written.start PageStart.ofJson?_toJson
      (fun start => by cases start <;> simp [PageStart.toJson])
  simp only [ofJson?, Json.record?, known, path, method, pageSize, embedded, targetType,
    paginated, direction, start, Option.bind_eq_bind, Option.bind_some, Option.pure_def]

/-! ## Whole texts -/

theorem isExact_toJson (spec : RefetchSpec) :
    spec.toJson.IsExact := by
  have size : ∀ entry ∈ Json.entry? "pageSize" (fun size => .integer size.toInt) spec.pageSize,
      entry.2.IsExact :=
    Json.isExact_of_mem_entry? fun _ => .integer _
  have start : ∀ entry ∈ Json.entry? "start" PageStart.toJson spec.start, entry.2.IsExact :=
    Json.isExact_of_mem_entry? PageStart.isExact_toJson
  apply Json.IsExact.object
  simp only [List.forall_mem_append, List.forall_mem_cons, List.not_mem_nil, false_imp_iff,
    implies_true, and_true]
  refine ⟨⟨⟨⟨?_, .string _⟩, size⟩, ?_⟩, start⟩
  · exact Json.isExact_ofStrings spec.path
  · exact ⟨.boolean _, .string _, .boolean _, .string _⟩

/-- The text of a spec is an object with the page size and the start just where the spec has them,
and the spec is read back from it as it was. -/
theorem ofText?_render_eq (spec : RefetchSpec) :
    (∃ fields, Json.ofText? spec.render = some (.object fields) ∧ spec.Written fields) ∧
      ofText? spec.render = some spec := by
  have read : Json.ofText? spec.render = some spec.toJson :=
    Json.IsExact.ofText?_render (isExact_toJson spec)
  obtain ⟨fields, shape, known, written⟩ := exists_fields spec
  rw [shape] at read
  refine ⟨⟨fields, read, written⟩, ?_⟩
  rw [ofText?, read, Option.bind_some, ofJson?_of_written known written]

end RefetchSpec

end QueryPaging
