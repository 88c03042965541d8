import QueryPaging.Proofs.Faithfulness

/-!
# Variables and the types of their arguments

A paging argument of a processed field passes a variable that the document declares. Where the
author declared it, promotion compares the types at their core and leaves the declaration as it is.
Otherwise the variable gets the nullable type of the first argument that is bound to it.

- `Pipeline.isTyped_of_process`: the types of the variables that a processed field passes.
- `Pipeline.not_forall_isFitted`: a list may be passed where no list belongs.
-/

namespace QueryPaging

/-! ## Types without their marks -/

namespace TypeRef

/-- The type with null allowed at every level. -/
def erased : TypeRef → TypeRef
  | .named name _ => .named name false
  | .list item _ => .list item.erased false

@[simp]
theorem erased_nullable (type : TypeRef) :
    type.nullable.erased = type.erased := by
  cases type <;> rfl

end TypeRef

/-! ## Types of arguments and of variables -/

namespace Promotion

/-- The type of an argument, by the schema or else by the argument itself. -/
def argumentType (schema : Schema) (field : PaginatedField) (argument : PagingArgument) : TypeRef :=
  match (schema.field? field.parentType field.name).bind (·.argument? argument.name) with
  | some declared => declared.type
  | none => argument.fallbackType

/-- The variable that an argument is bound to: the one passed, or else that of its own name. -/
def boundName (field : PaginatedField) (argument : PagingArgument) : Name :=
  match field.argument? argument.name with
  | some (.reference passed) => passed
  | _ => argument.name

/-- The type of a variable once the field is promoted: as it was declared, or else the nullable type
of the first argument that is bound to it. -/
def variableType? (schema : Schema) (field : PaginatedField) (mode : PagingMode)
    (existing : VariableSet) (name : Name) : Option TypeRef :=
  ((existing.get? name).map (·.type)).or
    ((mode.arguments.find? (boundName field · == name)).map
      fun argument => (argumentType schema field argument).nullable)

/-- That the arguments of a mode agree on their variables as far as some part of a type goes: with
the declaration where there is one, and with each other where they share a variable. -/
structure AgreeBy {Part : Type} (part : TypeRef → Part) (schema : Schema) (field : PaginatedField)
    (mode : PagingMode) (existing : VariableSet) : Prop where
  declared : ∀ argument ∈ mode.arguments, ∀ binding,
    existing.get? (boundName field argument) = some binding →
      part binding.type = part (argumentType schema field argument)
  shared : ∀ left ∈ mode.arguments, ∀ right ∈ mode.arguments,
    boundName field left = boundName field right →
      existing.get? (boundName field left) = none →
        part (argumentType schema field left) = part (argumentType schema field right)

variable {schema : Schema} {field : PaginatedField} {mode : PagingMode} {existing : VariableSet}
  {promotion : Promotion}

/-- An undeclared variable has the type of the first argument that is bound to it. -/
theorem exists_first_of_undeclared {argument : PagingArgument}
    (asked : argument ∈ mode.arguments)
    (undeclared : existing.get? (boundName field argument) = none) :
    ∃ earliest ∈ mode.arguments, boundName field earliest = boundName field argument ∧
      variableType? schema field mode existing (boundName field argument) =
        some (argumentType schema field earliest).nullable := by
  cases found : mode.arguments.find? (boundName field · == boundName field argument) with
  | none =>
      rw [List.find?_eq_none] at found
      exact absurd (beq_self_eq_true _) (found argument asked)
  | some earliest =>
      refine ⟨earliest, List.mem_of_find?_eq_some found, by simpa using List.find?_some found, ?_⟩
      rw [variableType?, undeclared, found]
      rfl

/-- Arguments agree on their variables just where each agrees with the type of its variable. -/
theorem agreeBy_iff {Part : Type} {part : TypeRef → Part}
    (ignoresNull : ∀ type, part type.nullable = part type) :
    AgreeBy part schema field mode existing ↔
      ∀ argument ∈ mode.arguments, ∀ type,
        variableType? schema field mode existing (boundName field argument) = some type →
          part type = part (argumentType schema field argument) := by
  constructor
  · intro agree argument asked type typed
    cases bound : existing.get? (boundName field argument) with
    | some binding =>
        rw [variableType?, bound, Option.map_some, Option.some_or, Option.some.injEq] at typed
        rw [← typed]
        exact agree.declared argument asked binding bound
    | none =>
        obtain ⟨earliest, isAsked, same, isFirst⟩ := exists_first_of_undeclared asked bound
        rw [isFirst, Option.some.injEq] at typed
        rw [← same] at bound
        rw [← typed, ignoresNull]
        exact agree.shared earliest isAsked argument asked same bound
  · intro each
    constructor
    case declared =>
      intro argument asked binding bound
      apply each argument asked
      rw [variableType?, bound, Option.map_some, Option.some_or]
    case shared =>
      intro left isLeft right isRight same undeclared
      obtain ⟨earliest, _, _, isFirst⟩ := exists_first_of_undeclared isLeft undeclared
      have likeLeft := each left isLeft _ isFirst
      rw [same] at isFirst
      rw [← likeLeft]
      exact each right isRight _ isFirst

theorem typeFor_eq_nullable (schema : Schema) (field : PaginatedField)
    (argument : PagingArgument) :
    typeFor (schema.field? field.parentType field.name) argument =
      (argumentType schema field argument).nullable := by
  unfold typeFor argumentType
  cases (schema.field? field.parentType field.name).bind (·.argument? argument.name) with
  | some declared => rfl
  | none => cases argument <;> rfl

theorem name_requestFor (definition : Option FieldDefinition) (field : PaginatedField)
    (mode : PagingMode) (argument : PagingArgument) :
    (requestFor definition field mode argument).name = boundName field argument := by
  unfold requestFor boundName
  split <;> simp_all

theorem find?_requests (schema : Schema) (field : PaginatedField) (mode : PagingMode)
    (name : Name) :
    (requests schema field mode).find? (·.name == name) =
      (mode.arguments.find? (boundName field · == name)).map
        (requestFor (schema.field? field.parentType field.name) field mode) := by
  rw [requests, List.find?_map]
  refine congrArg (Option.map _ <| List.find? · mode.arguments) (funext fun argument => ?_)
  rw [Function.comp_apply, name_requestFor]

theorem type_get?_promoted (name : Name)
    (result : promote schema field mode existing = .ok promotion) :
    (promotion.variableSet.get? name).map (·.type) =
      variableType? schema field mode existing name := by
  obtain ⟨merged, _, _⟩ := promote_eq_ok_iff.mp result
  rw [VariableSet.get?_merge name merged, find?_requests, variableType?]
  cases existing.get? name with
  | some binding => rfl
  | none =>
      cases mode.arguments.find? (boundName field · == name) with
      | none => rfl
      | some argument =>
          simp [VariableRequest.binding, typeFor_eq_nullable]

/-- Promotion binds each argument to a variable that is typed like it at its core. -/
theorem exists_get?_promoted {argument : PagingArgument}
    (result : promote schema field mode existing = .ok promotion)
    (asked : argument ∈ mode.arguments) :
    ∃ binding, promotion.variableSet.get? (boundName field argument) = some binding ∧
      binding.type.inner = (argumentType schema field argument).inner := by
  obtain ⟨merged, _, _⟩ := promote_eq_ok_iff.mp result
  obtain ⟨binding, bound, sameCore⟩ :=
    (VariableSet.merge_extends merged).met _ (List.mem_map_of_mem asked)
  rw [requestFor_type, typeFor_eq_nullable, TypeRef.inner_nullable] at sameCore
  rw [name_requestFor] at bound
  exact ⟨binding, bound, sameCore⟩

/-- Promotion fails where the arguments do not agree on the named types of their variables. -/
theorem exists_collision_of_not_agreeBy
    (disagree : ¬ AgreeBy TypeRef.inner schema field mode existing) :
    ∃ variableName passed found requested, promote schema field mode existing =
      .error (.variableCollision variableName passed found requested) := by
  cases result : promote schema field mode existing with
  | error fault =>
      rcases Pipeline.bind_eq_error_iff.mp result with collides | ⟨set, _, whole⟩
      · obtain ⟨variableName, passed, found, requested, rfl⟩ :=
          VariableSet.exists_collision_of_merge collides
        exact ⟨variableName, passed, found, requested, rfl⟩
      · cases whole
  | ok promotion =>
      refine absurd ((agreeBy_iff TypeRef.inner_nullable).mpr ?_) disagree
      intro argument asked type typed
      obtain ⟨binding, bound, sameCore⟩ := exists_get?_promoted result asked
      have sameType := type_get?_promoted (boundName field argument) result
      rw [bound, typed, Option.map_some, Option.some.injEq] at sameType
      rwa [sameType] at sameCore

end Promotion

/-! ## Processed documents -/

/-- That each variable which a document passes for a paging argument of its marked field is declared
with the type of the argument, up to whether null is allowed. -/
def Document.IsFitted (schema : Schema) (document : Document) : Prop :=
  ∃ field declared, PaginatedField.find schema document = .ok (some field) ∧
    document.variableSet = .ok declared ∧
    ∀ (argument : PagingArgument) (name : Name),
      field.argument? argument.name = some (.reference name) →
        ∃ binding, declared.get? name = some binding ∧
          binding.type.erased = (Promotion.argumentType schema field argument).erased

/-- That each paging argument of a promoted field passes a variable of the promoted document which
has the type that promotion gives it, and that this is the type of the argument at its core. -/
def Promotion.IsTyped (schema : Schema) (field : PaginatedField) (mode : PagingMode)
    (existing : VariableSet) (promoted : PaginatedField) (declared : VariableSet) : Prop :=
  ∀ (argument : PagingArgument) (value : Value),
    promoted.argument? argument.name = some value →
      argument ∈ mode.arguments ∧ value = .reference (boundName field argument) ∧
        ∃ binding, declared.get? (boundName field argument) = some binding ∧
          variableType? schema field mode existing (boundName field argument) = some binding.type ∧
          binding.type.inner = (argumentType schema field argument).inner

namespace Passage

variable {schema : Schema} {config : IdentityConfig} {document : Document}

/-- The paginated field of the processed document. -/
def promotedField (passage : Passage schema config document) : PaginatedField :=
  { passage.field with arguments := passage.promotion.arguments }

theorem find_processed (passage : Passage schema config document) :
    PaginatedField.find schema passage.outcome = .ok (some passage.promotedField) := by
  obtain ⟨rewriting⟩ := passage.exists_rewriting
  exact @Rewriting.find_outcome _ _ _ _ rewriting passage.outcome.refetch

theorem variableSet_processed (passage : Passage schema config document) :
    passage.outcome.variableSet = .ok passage.promotion.variableSet.asDeclared := by
  obtain ⟨rewriting⟩ := passage.exists_rewriting
  exact @Rewriting.variableSet_outcome _ _ _ _ rewriting passage.outcome.refetch

variable {argument : PagingArgument}

theorem argument?_promotedField (passage : Passage schema config document)
    (asked : argument ∈ passage.mode.arguments) :
    passage.promotedField.argument? argument.name =
      some (.reference (Promotion.boundName passage.field argument)) := by
  obtain ⟨_, bindings, arguments⟩ := Promotion.promote_eq_ok_iff.mp passage.isPromoted
  rw [promotedField, arguments, bindings, Promotion.requests,
    ← Promotion.name_requestFor (schema.field? passage.field.parentType passage.field.name) _
      passage.mode]
  exact Promotion.argument?_promoted asked

/-- A promoted field passes just the arguments of its mode, since detection chose a mode of all that
was passed before. -/
theorem mem_names_promotedField_iff (passage : Passage schema config document) :
    argument.name ∈ passage.promotedField.arguments.map (·.name) ↔
      argument ∈ passage.mode.arguments := by
  obtain ⟨_, _, arguments⟩ := Promotion.promote_eq_ok_iff.mp passage.isPromoted
  rw [promotedField, arguments, Promotion.mem_names_promoteArguments,
    Promotion.keys_bindings passage.isPromoted]
  constructor
  · rintro (before | asked)
    · exact PagingMode.mem_arguments_of_detect passage.isDetected before
    · obtain ⟨other, asked, same⟩ := List.mem_map.mp asked
      rwa [← PagingArgument.name_inj.mp same]
  · exact fun asked => Or.inr (List.mem_map_of_mem asked)

theorem mem_arguments_of_argument?_promotedField {value : Value}
    (passage : Passage schema config document)
    (supplied : passage.promotedField.argument? argument.name = some value) :
    argument ∈ passage.mode.arguments := by
  apply passage.mem_names_promotedField_iff.mp
  obtain ⟨written, first, _⟩ := Option.map_eq_some_iff.mp supplied
  have called : written.name = argument.name := by simpa using List.find?_some first
  rw [← called]
  exact List.mem_map_of_mem (List.mem_of_find?_eq_some first)

theorem isTyped (passage : Passage schema config document) :
    Promotion.IsTyped schema passage.field passage.mode passage.existing passage.promotedField
      passage.promotion.variableSet.asDeclared := by
  intro argument value supplied
  have asked := passage.mem_arguments_of_argument?_promotedField supplied
  rw [passage.argument?_promotedField asked, Option.some.injEq] at supplied
  obtain ⟨binding, bound, sameCore⟩ := Promotion.exists_get?_promoted passage.isPromoted asked
  refine ⟨asked, supplied.symm, VariableSet.authoredBinding binding, ?_, ?_, sameCore⟩
  · rw [VariableSet.get?_asDeclared, bound, Option.map_some]
  · rw [← Promotion.type_get?_promoted _ passage.isPromoted, bound]
    rfl

theorem isFitted_iff (passage : Passage schema config document) :
    passage.outcome.IsFitted schema ↔
      Promotion.AgreeBy TypeRef.erased schema passage.field passage.mode passage.existing := by
  rw [Promotion.agreeBy_iff TypeRef.erased_nullable]
  constructor
  · rintro ⟨field, declared, isFound, isRead, fits⟩ argument asked type typed
    rw [passage.find_processed, Except.ok.injEq, Option.some.injEq] at isFound
    rw [passage.variableSet_processed, Except.ok.injEq] at isRead
    subst isFound isRead
    have supplied := passage.argument?_promotedField asked
    obtain ⟨binding, bound, fitting⟩ := fits argument _ supplied
    obtain ⟨_, _, _, alsoBound, alsoTyped, _⟩ := passage.isTyped argument _ supplied
    rw [bound, Option.some.injEq] at alsoBound
    rw [typed, ← alsoBound, Option.some.injEq] at alsoTyped
    rw [alsoTyped]
    exact fitting
  · intro fits
    refine ⟨_, _, passage.find_processed, passage.variableSet_processed, ?_⟩
    intro argument name supplied
    obtain ⟨asked, same, binding, bound, typed, _⟩ := passage.isTyped argument _ supplied
    cases same
    exact ⟨binding, bound, fits argument asked binding.type typed⟩

end Passage

namespace Pipeline

/-- Where promotion fails, so does the first phase, with the same fault. -/
theorem process_eq_error_of_promote {schema : Schema} {config : IdentityConfig}
    {document : Document} {field : PaginatedField} {existing : VariableSet} {mode : PagingMode}
    {fault : Fault}
    (isFound : PaginatedField.find schema document = .ok (some field))
    (isRead : document.variableSet = .ok existing)
    (isDetected : PagingMode.detect schema field = .ok mode)
    (failed : Promotion.promote schema field mode existing = .error fault) :
    process schema config document =
      .error (Diagnostic.ofFault document field.span .promoteArguments fault) := by
  rw [process, isFound]
  simp only [atStage, bind, Except.bind, isRead, isDetected, failed]

/-- The variables that a processed field passes for its paging arguments are declared with the named
types of these arguments. They fit the arguments just where the author's declarations do, and where
arguments that share a variable fit each other, since nothing but the named types is compared. Where
these differ, the document is refused. -/
theorem isTyped_of_process (schema : Schema) (config : IdentityConfig) (document : Document) :
    (∀ processed, process schema config document = .ok (some processed) →
      ∃ field existing mode promoted declared,
        PaginatedField.find schema document = .ok (some field) ∧
        document.variableSet = .ok existing ∧
        PagingMode.detect schema field = .ok mode ∧
        PaginatedField.find schema processed.document = .ok (some promoted) ∧
        processed.document.variableSet = .ok declared ∧
        Promotion.IsTyped schema field mode existing promoted declared ∧
        (processed.document.IsFitted schema ↔
          Promotion.AgreeBy TypeRef.erased schema field mode existing)) ∧
    ∀ field existing mode,
      PaginatedField.find schema document = .ok (some field) →
      document.variableSet = .ok existing →
      PagingMode.detect schema field = .ok mode →
      ¬ Promotion.AgreeBy TypeRef.inner schema field mode existing →
        ∃ variableName passed found requested, process schema config document =
          .error (Diagnostic.ofFault document field.span .promoteArguments
            (.variableCollision variableName passed found requested)) := by
  constructor
  · intro processed result
    obtain ⟨passage, rfl⟩ := process_eq_ok_some_iff.mp result
    exact ⟨passage.field, passage.existing, passage.mode, passage.promotedField, _,
      passage.isFound, passage.isRead, passage.isDetected, passage.find_processed,
      passage.variableSet_processed, passage.isTyped, passage.isFitted_iff⟩
  · intro field existing mode isFound isRead isDetected disagree
    obtain ⟨variableName, passed, found, requested, failed⟩ :=
      Promotion.exists_collision_of_not_agreeBy disagree
    exact ⟨variableName, passed, found, requested,
      process_eq_error_of_promote isFound isRead isDetected failed⟩

end Pipeline

/-! ## A limit of various types -/

namespace Sample

/-- An operation that declares its limit with a type of its own and passes some arguments. -/
def limitedOperation (type : TypeRef) (arguments : List Argument) : Document :=
  Document.ofDefinition "sample.graphql"
    (.operation ⟨.query, some twice, [⟨PagingArgument.limit.name, type, none, []⟩], [],
      [.field ⟨none, items, arguments, [mark], [], none⟩], none⟩)

def passedLimit : Argument :=
  ⟨PagingArgument.limit.name, .reference PagingArgument.limit.name⟩

end Sample

namespace Pipeline

/-- A list of limits is passed as the limit, and a text is refused. -/
theorem isTyped_of_process_limit :
    let nested := Sample.limitedOperation (.list (.named Name.intType false) false)
      [Sample.passedLimit]
    let text := Sample.limitedOperation (.named Name.stringType false) [Sample.passedLimit]
    (∃ processed field existing mode promoted declared,
      process Sample.schema .standard nested = .ok (some processed) ∧
      PaginatedField.find Sample.schema processed.document = .ok (some promoted) ∧
      processed.document.variableSet = .ok declared ∧
      Promotion.IsTyped Sample.schema field mode existing promoted declared) ∧
    ∃ span variableName passed found requested, process Sample.schema .standard text =
      .error (Diagnostic.ofFault text span .promoteArguments
        (.variableCollision variableName passed found requested)) := by
  intro nested text
  have result : process Sample.schema .standard nested = .ok (some _) := rfl
  refine ⟨?_, ?_⟩
  · obtain ⟨field, existing, mode, promoted, declared, _, _, _, isFound, isRead, typed, _⟩ :=
      (isTyped_of_process Sample.schema .standard nested).1 _ result
    exact ⟨_, field, existing, mode, promoted, declared, result, isFound, isRead, typed⟩
  · refine ⟨_, (isTyped_of_process Sample.schema .standard text).2 _ _ .offset rfl rfl rfl ?_⟩
    intro agree
    have same := agree.declared .limit List.mem_cons_self _ rfl
    revert same
    decide

/-- A list of limits may be passed as the limit, so not every processed document is fitted. If an
argument is written twice, the variable passed the second time need not be declared at all. -/
theorem not_forall_isFitted :
    (¬ ∀ (schema : Schema) (config : IdentityConfig) (document : Document) (processed : Processed),
      process schema config document = .ok (some processed) →
        processed.document.IsFitted schema) ∧
    ∃ processed field declared,
      process Sample.schema .standard (Sample.limitedOperation (.named Name.intType false)
          [Sample.passedLimit, ⟨PagingArgument.limit.name, .reference Sample.rest⟩]) =
        .ok (some processed) ∧
      PaginatedField.find Sample.schema processed.document = .ok (some field) ∧
      processed.document.variableSet = .ok declared ∧
      ⟨PagingArgument.limit.name, .reference Sample.rest⟩ ∈ field.arguments ∧
      declared.get? Sample.rest = none := by
  constructor
  · intro always
    obtain ⟨field, declared, isFound, isRead, fits⟩ := always Sample.schema .standard
      (Sample.limitedOperation (.list (.named Name.intType false) false) [Sample.passedLimit]) _ rfl
    cases isFound
    cases isRead
    obtain ⟨binding, bound, fitting⟩ := fits .limit PagingArgument.limit.name rfl
    cases bound
    cases fitting
  · exact ⟨_, _, _, rfl, rfl, rfl, by decide, rfl⟩

end Pipeline

end QueryPaging
