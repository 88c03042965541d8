import QueryPaging.Proofs.Additions
import QueryPaging.Proofs.Fitting

/-!
# Values of a refetch spec

A spec takes its start and its page size from the defaults of the variables that the field passes.
Of several arguments the first one with a default counts, whatever that default is, and a start is
read by what it is, whatever the method. So a spec is of use to a runtime just where the defaults
that count are of the right kind.

- `RefetchSpec.IsUsable`: what a runtime needs of the values.
- `PagingMode.CountsUsable`: that the defaults that count are of the right kind.
- `Pipeline.isUsable_iff_of_process`: the values are usable just where those defaults are.
- `Pipeline.not_forall_isUsable`: a field that pages by cursors may be told to start at an integer.
-/

namespace QueryPaging

/-! ## Starts and sizes -/

def PageStart.method : PageStart → PagingMethod
  | .cursor _ => .cursor
  | .offset _ => .offset

/-- That a value is of the kind that pages of a method start at: a text or an integer. -/
inductive PagingMethod.StartsAt : PagingMethod → Value → Prop where
  | cursor (text : String) : StartsAt .cursor (.string text)
  | offset (digits : String) : StartsAt .offset (.int digits)

/-- The default of the variable that a field passes for an argument. -/
def PaginatedField.default? (field : PaginatedField) (declared : VariableSet)
    (argument : PagingArgument) : Option Value :=
  match field.argument? argument.name with
  | some (.reference name) => declared.default? name
  | _ => none

/-- That the values of a spec are of use to a runtime: the start belongs to the method, it is there
if some argument has a default of that kind, and the page size is the first default of an anchor
that is a 32-bit integer. -/
structure RefetchSpec.IsUsable (spec : RefetchSpec) (mode : PagingMode)
    (default? : PagingArgument → Option Value) : Prop where
  kind : ∀ start, spec.start = some start → start.method = spec.method
  start : ∀ argument ∈ mode.starts, ∀ value, default? argument = some value →
    spec.method.StartsAt value → spec.start ≠ none
  pageSize : ∀ size,
    mode.anchors.findSome? (fun argument => (default? argument).bind Value.int32?) = some size →
      spec.pageSize = some size

/-- That the defaults which count for a spec are of the right kind, or else of no kind that is read
while no other default is of the right kind. -/
structure PagingMode.CountsUsable (mode : PagingMode)
    (default? : PagingArgument → Option Value) : Prop where
  start : ∀ value, mode.starts.findSome? default? = some value →
    (∃ start, PageStart.ofValue? value = some start ∧ start.method = mode.method) ∨
      PageStart.ofValue? value = none ∧
        ∀ argument ∈ mode.starts, ∀ other, default? argument = some other →
          ¬ mode.method.StartsAt other
  pageSize : ∀ value, mode.anchors.findSome? default? = some value →
    (∃ size, value.int32? = some size) ∨
      ∀ argument ∈ mode.anchors, ∀ other, default? argument = some other → other.int32? = none

/-- The first value is the first readable one, if it can be read. -/
theorem findSome?_bind_of_readable {Item Entry Result : Type} {value? : Item → Option Entry}
    {read? : Entry → Option Result} {items : List Item} {value : Entry} {result : Result}
    (first : items.findSome? value? = some value)
    (readable : read? value = some result) :
    items.findSome? (fun item => (value? item).bind read?) = some result := by
  obtain ⟨before, item, after, rfl, isValue, absent⟩ := List.findSome?_eq_some_iff.mp first
  have skipped : before.findSome? (fun item => (value? item).bind read?) = none := by
    refine List.findSome?_eq_none_iff.mpr fun earlier member => ?_
    rw [absent earlier member, Option.bind_none]
  rw [List.findSome?_append, skipped, Option.none_or, List.findSome?_cons, isValue,
    Option.bind_some, readable]

theorem exists_findSome?_of_mem {Item Entry : Type} {value? : Item → Option Entry}
    {items : List Item} {item : Item} {value : Entry}
    (member : item ∈ items)
    (isValue : value? item = some value) :
    ∃ first, items.findSome? value? = some first := by
  rw [← Option.isSome_iff_exists, List.findSome?_isSome_iff]
  exact ⟨item, member, by rw [isValue]; rfl⟩

namespace RefetchSpec

variable (inputs : RefetchInputs)

theorem start_build :
    (build inputs).start =
      (inputs.mode.starts.findSome? inputs.default?).bind PageStart.ofValue? :=
  rfl

theorem pageSize_build :
    (build inputs).pageSize =
      (inputs.mode.anchors.findSome? inputs.default?).bind Value.int32? :=
  rfl

theorem isUsable_build_iff :
    (build inputs).IsUsable inputs.mode inputs.default? ↔
      inputs.mode.CountsUsable inputs.default? := by
  constructor
  · intro usable
    constructor
    case start =>
      intro value counts
      have isStart := start_build inputs
      rw [counts, Option.bind_some] at isStart
      cases read : PageStart.ofValue? value with
      | some start =>
          rw [read] at isStart
          exact Or.inl ⟨start, rfl, usable.kind start isStart⟩
      | none =>
          rw [read] at isStart
          exact Or.inr ⟨rfl, fun argument isArgument other isDefault fits =>
            usable.start argument isArgument other isDefault fits isStart⟩
    case pageSize =>
      intro value counts
      cases read : value.int32? with
      | some size => exact Or.inl ⟨size, rfl⟩
      | none =>
          refine Or.inr fun argument isArgument other isDefault => ?_
          by_contra readable
          obtain ⟨size, isSize⟩ := Option.ne_none_iff_exists'.mp readable
          have isReadable : (inputs.default? argument).bind Value.int32? = some size := by
            rw [isDefault, Option.bind_some, isSize]
          obtain ⟨first, isFirst⟩ := @exists_findSome?_of_mem _ _
            (fun argument => (inputs.default? argument).bind Value.int32?) _ _ _ isArgument
            isReadable
          have taken := usable.pageSize first isFirst
          rw [pageSize_build, counts, Option.bind_some, read] at taken
          cases taken
  · intro counts
    constructor
    case kind =>
      intro start isStart
      rw [start_build] at isStart
      obtain ⟨value, isFirst, read⟩ := Option.bind_eq_some_iff.mp isStart
      rcases counts.start value isFirst with ⟨other, alsoRead, fits⟩ | ⟨unread, _⟩
      · rw [read, Option.some.injEq] at alsoRead
        exact alsoRead ▸ fits
      · rw [read] at unread
        cases unread
    case start =>
      intro argument isArgument value isDefault fits
      obtain ⟨first, isFirst⟩ := exists_findSome?_of_mem isArgument isDefault
      rw [start_build, isFirst, Option.bind_some]
      rcases counts.start first isFirst with ⟨start, read, _⟩ | ⟨_, noneFits⟩
      · rw [read]
        exact nofun
      · exact absurd fits (noneFits argument isArgument value isDefault)
    case pageSize =>
      intro size isSize
      obtain ⟨argument, isArgument, readable⟩ := List.exists_of_findSome?_eq_some isSize
      obtain ⟨value, isDefault, read⟩ := Option.bind_eq_some_iff.mp readable
      obtain ⟨first, isFirst⟩ := exists_findSome?_of_mem isArgument isDefault
      rcases counts.pageSize first isFirst with ⟨taken, isTaken⟩ | noneFits
      · rw [findSome?_bind_of_readable isFirst isTaken] at isSize
        rw [pageSize_build, isFirst, Option.bind_some, isTaken, isSize]
      · rw [noneFits argument isArgument value isDefault] at read
        cases read

end RefetchSpec

/-! ## Processed documents -/

namespace Passage

variable {schema : Schema} {config : IdentityConfig} {document : Document}

/-- The defaults that a spec was built from are those of the processed document. -/
theorem default?_promotedField (passage : Passage schema config document) :
    passage.promotedField.default? passage.promotion.variableSet.asDeclared =
      passage.inputs.default? := by
  funext argument
  rw [PaginatedField.default?, RefetchInputs.default?, inputs]
  by_cases asked : argument ∈ passage.mode.arguments
  · rw [passage.argument?_promotedField asked, Promotion.get?_bindings passage.isPromoted asked,
      Promotion.name_requestFor]
    exact VariableSet.default?_asDeclared _ _
  · have unbound : passage.promotion.bindings.get? argument.name = none := by
      rw [Table.get?_eq_none_iff, Promotion.keys_bindings passage.isPromoted]
      intro member
      obtain ⟨other, isAsked, same⟩ := List.mem_map.mp member
      exact asked (PagingArgument.name_inj.mp same ▸ isAsked)
    rw [unbound]
    cases supplied : passage.promotedField.argument? argument.name with
    | none => rfl
    | some value =>
        exact absurd (passage.mem_arguments_of_argument?_promotedField supplied) asked

end Passage

namespace Pipeline

/-- The values of the spec that a processed document carries are usable just where the defaults that
count for it are of the right kind. -/
theorem isUsable_iff_of_process {schema : Schema} {config : IdentityConfig} {document : Document}
    {processed : Processed}
    (result : process schema config document = .ok (some processed)) :
    ∃ field mode declared spec,
      PaginatedField.find schema processed.document = .ok (some field) ∧
      PagingMode.detect schema field = .ok mode ∧
      processed.document.variableSet = .ok declared ∧
      processed.document.refetch = some spec ∧
      spec.method = mode.method ∧
      (spec.IsUsable mode (field.default? declared) ↔
        mode.CountsUsable (field.default? declared)) := by
  obtain ⟨passage, rfl⟩ := process_eq_ok_some_iff.mp result
  refine ⟨passage.promotedField, passage.mode, passage.promotion.variableSet.asDeclared,
    RefetchSpec.build passage.inputs, passage.find_processed,
    Promotion.detect_promoted passage.isDetected passage.isPromoted,
    passage.variableSet_processed, rfl, rfl, ?_⟩
  rw [passage.default?_promotedField]
  exact RefetchSpec.isUsable_build_iff passage.inputs

end Pipeline

namespace Feed

/-- A schema in which users are listed after an identifier. -/
def identifierSchema : Schema where
  types := Schema.BuiltIn.types ++
    [⟨Sample.queryType, .object []
        [⟨users,
          [⟨PagingArgument.first.name, .named Name.intType false, none⟩,
            ⟨PagingArgument.after.name, .named Name.idType false, none⟩],
          .named connectionType false⟩]⟩,
      ⟨connectionType, .object []
        [⟨Augmentation.edges, [], .list (.named edgeType false) false⟩,
          ⟨Augmentation.pageInfo, [], .named infoType false⟩]⟩,
      ⟨edgeType, .object [] [cursorField]⟩,
      ⟨infoType, .object [] [⟨hasNextPage, [], .named Name.stringType false⟩]⟩]
  roots := [⟨.query, Sample.queryType⟩]
  directives := []

/-- An operation that pages through the ten users after a given one. -/
def usersAfter (start : Value) : Document :=
  Document.ofDefinition "sample.graphql"
    (.operation ⟨.query, some users, [], [],
      [.field ⟨none, users,
        [⟨PagingArgument.first.name, .int "10"⟩, ⟨PagingArgument.after.name, start⟩],
        [Sample.mark], [], none⟩], none⟩)

end Feed

namespace Pipeline

/-- Users after one that is told by a text can be fetched again. -/
theorem isUsable_iff_of_process_users :
    ∃ processed,
      process Feed.identifierSchema .standard (Feed.usersAfter (.string "7")) =
        .ok (some processed) ∧
      ∃ field mode declared spec,
        PaginatedField.find Feed.identifierSchema processed.document = .ok (some field) ∧
        PagingMode.detect Feed.identifierSchema field = .ok mode ∧
        processed.document.variableSet = .ok declared ∧
        processed.document.refetch = some spec ∧
        spec.method = mode.method ∧
        spec.IsUsable mode (field.default? declared) := by
  have result : process Feed.identifierSchema .standard (Feed.usersAfter (.string "7")) =
      .ok (some _) := rfl
  obtain ⟨field, mode, declared, spec, isFound, isDetected, isRead, carries, sameMethod, usable⟩ :=
    isUsable_iff_of_process result
  refine ⟨_, result, field, mode, declared, spec, isFound, isDetected, isRead, carries, sameMethod,
    usable.mpr ?_⟩
  cases isFound
  cases isDetected
  cases isRead
  constructor
  case start =>
    intro value counts
    cases counts
    exact Or.inl ⟨.cursor "7", rfl, rfl⟩
  case pageSize =>
    intro value counts
    cases counts
    exact Or.inl ⟨10, rfl⟩

/-- Where a user is told by an integer, the spec says to page by cursors and to start there. -/
theorem not_forall_isUsable :
    ¬ ∀ (schema : Schema) (config : IdentityConfig) (document : Document) (processed : Processed)
      (field : PaginatedField) (mode : PagingMode) (declared : VariableSet) (spec : RefetchSpec),
      process schema config document = .ok (some processed) →
      PaginatedField.find schema processed.document = .ok (some field) →
      PagingMode.detect schema field = .ok mode →
      processed.document.variableSet = .ok declared →
      processed.document.refetch = some spec →
        spec.IsUsable mode (field.default? declared) := by
  intro always
  have usable := always Feed.identifierSchema .standard (Feed.usersAfter (.int "7"))
    _ _ _ _ _ rfl rfl rfl rfl rfl
  have sameMethod := usable.kind (.offset 7) rfl
  exact absurd sameMethod (by decide)

end Pipeline

end QueryPaging
