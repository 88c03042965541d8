import Mathlib.Data.List.Forall2
import QueryPaging.Proofs.Batches
import QueryPaging.Proofs.Faulting
import QueryPaging.Proofs.Tables

/-!
# Faithful promotion

Promotion means what the author wrote. A literal becomes the default of the variable that takes its
place, a variable that is passed stays, and what is not passed is added behind. Afterwards no
argument that pages through the field is a literal.

- `Promotion.IsFaithful`: what is true of every promotion.
- `Promotion.isFaithful_of_detect`: promotion is faithful, and refuses literals that differ from a
  default already there.
-/

namespace QueryPaging

/-- Whether a value is passed as it is, and not as a variable. -/
def Value.IsLiteral (value : Value) : Prop :=
  ∀ passed, value ≠ .reference passed

/-! ## Defaults -/

namespace VariableSet

variable {set merged : VariableSet} {request : VariableRequest} {value : Value}

/-- A literal is the default of its variable once its request is met. -/
theorem default?_of_merge {requests : List VariableRequest}
    (result : set.merge requests = .ok merged)
    (member : request ∈ requests)
    (literal : request.kind = .literal value) :
    merged.default? request.name = some value := by
  obtain ⟨binding, bound, suits⟩ := exists_suits_of_merge result request member
  rw [default?, bound, Option.bind_some, suits.literal value literal]

end VariableSet

/-! ## Arguments that are passed belong to the mode -/

namespace PagingMode

/-- The mode asks for whatever paging argument is supplied. -/
theorem modeBy_supplied (mode : PagingMode) :
    ∀ suppliedForward suppliedBackward suppliedOffset declaredForward declaredBackward
      declaredOffset bidirectional : Bool,
      modeBy suppliedForward suppliedBackward suppliedOffset declaredForward declaredBackward
          declaredOffset bidirectional = some mode →
        (suppliedForward = true → PagingArgument.forward ⊆ mode.arguments) ∧
        (suppliedBackward = true → PagingArgument.backward ⊆ mode.arguments) ∧
        (suppliedOffset = true → PagingArgument.offsets ⊆ mode.arguments) := by
  cases mode <;> decide

variable {schema : Schema} {field : PaginatedField} {mode : PagingMode}

theorem hasAny_of_mem {names : List Name} {group : List PagingArgument}
    {argument : PagingArgument}
    (supplied : argument.name ∈ names)
    (inGroup : argument ∈ group) :
    hasAny names group = true := by
  rw [hasAny, List.any_eq_true]
  refine ⟨argument.name, supplied, ?_⟩
  rw [PagingArgument.areNamed, List.any_eq_true]
  exact ⟨argument, inGroup, beq_self_eq_true _⟩

theorem mem_arguments_of_detect {argument : PagingArgument}
    (detected : detect schema field = .ok mode)
    (supplied : argument.name ∈ field.arguments.map (·.name)) :
    argument ∈ mode.arguments := by
  unfold detect at detected
  split at detected
  · cases detected
  · obtain ⟨classified, isClassified, fits⟩ := Pipeline.bind_eq_ok_iff.mp detected
    obtain ⟨_, _, rfl⟩ := fitting_eq_ok_iff.mp fits
    obtain ⟨forward, backward, offset⟩ :=
      modeBy_supplied classified _ _ _ _ _ _ _ (classify_eq_ok_iff.mp isClassified)
    cases argument with
    | first | after =>
        exact forward (hasAny_of_mem supplied (by decide)) (by decide)
    | last | before =>
        exact backward (hasAny_of_mem supplied (by decide)) (by decide)
    | limit | offset =>
        exact offset (hasAny_of_mem supplied (by decide)) (by decide)

end PagingMode

/-! ## The promoted arguments -/

namespace Promotion

/-- What becomes of an argument that was written: a literal of an argument of the mode is replaced
by the variable that the argument is bound to, and everything else is kept. -/
inductive Replaces (mode : PagingMode) (bindings : Table Name Name) : Argument → Argument → Prop where
  | reference (name passed : Name) :
      Replaces mode bindings ⟨name, .reference passed⟩ ⟨name, .reference passed⟩
  | other {argument : Argument}
      (unpaged : ∀ paging ∈ mode.arguments, argument.name ≠ paging.name) :
      Replaces mode bindings argument argument
  | literal {paging : PagingArgument} {value : Value} {bound : Name}
      (asked : paging ∈ mode.arguments)
      (isLiteral : value.IsLiteral)
      (isBound : bindings.get? paging.name = some bound) :
      Replaces mode bindings ⟨paging.name, value⟩ ⟨paging.name, .reference bound⟩

/-- The named type of an argument, by the schema or else by the argument itself. -/
def namedType (schema : Schema) (field : PaginatedField) (argument : PagingArgument) : Name :=
  match (schema.field? field.parentType field.name).bind (·.argument? argument.name) with
  | some declared => declared.type.inner
  | none => argument.fallbackType.inner

/-- That a promotion means what the author wrote. -/
structure IsFaithful (schema : Schema) (field : PaginatedField) (mode : PagingMode)
    (existing : VariableSet) (promotion : Promotion) : Prop where
  keeps : ∃ added, promotion.variableSet.bindings = existing.bindings ++ added
  /-- The arguments of the mode are bound in canonical order, each once. -/
  binds : promotion.bindings.keys = mode.arguments.map PagingArgument.name
  typed : ∀ argument ∈ mode.arguments, ∃ bound binding,
    promotion.bindings.get? argument.name = some bound ∧
      promotion.variableSet.get? bound = some binding ∧
      binding.type.inner = namedType schema field argument
  literal : ∀ argument ∈ mode.arguments, ∀ value,
    field.argument? argument.name = some value → value.IsLiteral →
      promotion.bindings.get? argument.name = some argument.name ∧
        promotion.variableSet.default? argument.name = some value
  reference : ∀ argument ∈ mode.arguments, ∀ passed,
    field.argument? argument.name = some (.reference passed) →
      promotion.bindings.get? argument.name = some passed
  /-- What was written stays in place, and the missing arguments follow in canonical order. -/
  arguments : ∃ written missing, promotion.arguments = written ++ missing ∧
    List.Forall₂ (Replaces mode promotion.bindings) field.arguments written ∧
    missing.map (·.name) = (mode.arguments.map PagingArgument.name).filter
      (· ∉ field.arguments.map (·.name)) ∧
    ∀ argument ∈ missing, ∃ bound, promotion.bindings.get? argument.name = some bound ∧
      argument.value = .reference bound
  /-- No argument that pages through the field is a literal, whichever mode it belongs to. -/
  settled : ∀ argument ∈ promotion.arguments, ∀ paging : PagingArgument,
    argument.name = paging.name → ¬ argument.value.IsLiteral

section Faithful

variable {schema : Schema} {field : PaginatedField} {mode : PagingMode} {existing : VariableSet}
  {promotion : Promotion}

theorem inner_typeFor (schema : Schema) (field : PaginatedField) (argument : PagingArgument) :
    (typeFor (schema.field? field.parentType field.name) argument).inner =
      namedType schema field argument := by
  unfold typeFor namedType
  cases (schema.field? field.parentType field.name).bind (·.argument? argument.name) with
  | none => rfl
  | some declared => exact TypeRef.inner_nullable declared.type

theorem requestFor_literal {definition : Option FieldDefinition} {argument : PagingArgument}
    {value : Value}
    (supplied : field.argument? argument.name = some value)
    (isLiteral : value.IsLiteral) :
    requestFor definition field mode argument =
      ⟨argument.name, typeFor definition argument, argument.name, .promoted, .literal value⟩ := by
  unfold requestFor
  rw [supplied]
  split
  · next passed same => exact absurd (Option.some.inj same) (isLiteral passed)
  · next same => rw [Option.some.inj same]
  · next none => cases none

theorem default?_of_literal {merged : VariableSet} {argument : PagingArgument} {value : Value}
    (result : existing.merge (requests schema field mode) = .ok merged)
    (asked : argument ∈ mode.arguments)
    (supplied : field.argument? argument.name = some value)
    (isLiteral : value.IsLiteral) :
    merged.default? argument.name = some value := by
  have request := @requestFor_literal field mode
    (schema.field? field.parentType field.name) argument value supplied isLiteral
  have isDefault := VariableSet.default?_of_merge result (List.mem_map_of_mem asked)
    (congrArg VariableRequest.kind request)
  rwa [request] at isDefault

theorem replaces_promoteArgument {bindings : Table Name Name} (argument : Argument)
    (binds : bindings.keys = mode.arguments.map PagingArgument.name) :
    Replaces mode bindings argument (promoteArgument bindings argument) := by
  obtain ⟨name, value⟩ := argument
  by_cases isLiteral : value.IsLiteral
  · cases bound : bindings.get? name with
    | none =>
        rw [promoteArgument_of_get?_eq_none bound]
        apply Replaces.other
        rintro paging asked rfl
        rw [Table.get?_eq_none_iff, binds] at bound
        exact bound (List.mem_map_of_mem asked)
    | some variableName =>
        have among : name ∈ bindings.keys := by
          by_cases present : name ∈ bindings.keys
          · exact present
          · rw [Table.get?_eq_none_iff.mpr present] at bound
            cases bound
        rw [binds] at among
        obtain ⟨paging, asked, rfl⟩ := List.mem_map.mp among
        have replaced := @promoteArgument_of_get?_eq_some bindings ⟨paging.name, value⟩ variableName
          isLiteral bound
        rw [replaced]
        exact .literal asked isLiteral bound
  · obtain ⟨passed, rfl⟩ : ∃ passed, value = .reference passed := by
      simpa [Value.IsLiteral] using isLiteral
    exact .reference name passed

theorem names_missing {bindings : Table Name Name} (written : List Argument) :
    ((bindings.filter fun entry => !written.any (·.name == entry.1)).map
        fun entry => (⟨entry.1, .reference entry.2⟩ : Argument)).map (·.name) =
      bindings.keys.filter (· ∉ written.map (·.name)) := by
  rw [List.map_map, Table.keys, List.filter_map]
  refine congrArg (List.map Prod.fst) (List.filter_congr fun entry _ => ?_)
  rw [Bool.eq_iff_iff, Bool.not_eq_true', ← Bool.not_eq_true, any_name_eq_true_iff]
  simp

/-! ## Bound variables -/

theorem keys_bindings
    (result : promote schema field mode existing = .ok promotion) :
    promotion.bindings.keys = mode.arguments.map PagingArgument.name := by
  obtain ⟨_, bindings, _⟩ := promote_eq_ok_iff.mp result
  rw [bindings, requests, keys_bindingsOf]

theorem get?_bindings
    (result : promote schema field mode existing = .ok promotion) {argument : PagingArgument}
    (asked : argument ∈ mode.arguments) :
    promotion.bindings.get? argument.name =
      some (requestFor (schema.field? field.parentType field.name) field mode argument).name := by
  obtain ⟨_, bindings, _⟩ := promote_eq_ok_iff.mp result
  rw [bindings, requests, get?_bindingsOf _ field mode asked]

theorem get?_bindings_of_mem {entry : Name × Name}
    (result : promote schema field mode existing = .ok promotion)
    (member : entry ∈ promotion.bindings) :
    promotion.bindings.get? entry.1 = some entry.2 := by
  have distinct : promotion.bindings.keys.Nodup := by
    rw [keys_bindings result]
    cases mode <;> decide
  exact Table.get?_eq_some_of_mem distinct member

theorem isFaithful_of_promote
    (detected : PagingMode.detect schema field = .ok mode)
    (result : promote schema field mode existing = .ok promotion) :
    promotion.IsFaithful schema field mode existing := by
  obtain ⟨merged, _, passed⟩ := promote_eq_ok_iff.mp result
  have extended := VariableSet.merge_extends merged
  have keys := keys_bindings result
  constructor
  case keeps =>
    obtain ⟨added, whole, _⟩ := extended.bindings
    exact ⟨added, whole⟩
  case binds => exact keys
  case typed =>
    intro argument asked
    obtain ⟨binding, found, sameCore⟩ := extended.met _ (List.mem_map_of_mem asked)
    rw [requestFor_type, inner_typeFor] at sameCore
    exact ⟨_, binding, get?_bindings result asked, found, sameCore⟩
  case literal =>
    intro argument asked value supplied isLiteral
    refine ⟨?_, default?_of_literal merged asked supplied isLiteral⟩
    rw [get?_bindings result asked, requestFor_literal supplied isLiteral]
  case reference =>
    intro argument asked name supplied
    rw [get?_bindings result asked, requestFor_reference supplied]
  case arguments =>
    refine ⟨_, _, passed, ?_, ?_, ?_⟩
    · rw [List.forall₂_map_right_iff, List.forall₂_same]
      exact fun argument _ => replaces_promoteArgument argument keys
    · rw [names_missing, keys]
    · intro argument missing
      obtain ⟨entry, among, rfl⟩ := List.mem_map.mp missing
      exact ⟨entry.2, get?_bindings_of_mem result (List.mem_filter.mp among).1, rfl⟩
  case settled =>
    rintro argument member paging isPaging literal
    rw [passed, promoteArguments] at member
    rcases List.mem_append.mp member with written | missing
    · obtain ⟨source, among, rfl⟩ := List.mem_map.mp written
      rw [promoteArgument_name] at isPaging
      -- Detection chose a mode of all that was written, so no literal is left out.
      have asked : paging ∈ mode.arguments := by
        apply PagingMode.mem_arguments_of_detect detected
        rw [← isPaging]
        exact List.mem_map_of_mem among
      have replaced := @replaces_promoteArgument mode promotion.bindings source keys
      generalize promoteArgument promotion.bindings source = promoted at replaced literal
      cases replaced with
      | reference name variableName => exact literal variableName rfl
      | other unpaged => exact unpaged paging asked isPaging
      | literal _ _ _ => exact literal _ rfl
    · obtain ⟨entry, _, rfl⟩ := List.mem_map.mp missing
      exact literal entry.2 rfl

/-- A literal that differs from the default of a variable of its own name cannot replace it. -/
theorem exists_collision_of_literal {argument : PagingArgument} {value : Value}
    {binding : VariableBinding}
    (asked : argument ∈ mode.arguments)
    (supplied : field.argument? argument.name = some value)
    (isLiteral : value.IsLiteral)
    (declared : existing.get? argument.name = some binding)
    (differs : binding.default ≠ some value) :
    ∃ variableName passed found requested, promote schema field mode existing =
      .error (.variableCollision variableName passed found requested) := by
  cases merged : existing.merge (requests schema field mode) with
  | error fault =>
      obtain ⟨variableName, passed, found, requested, rfl⟩ :=
        VariableSet.exists_collision_of_merge merged
      refine ⟨variableName, passed, found, requested, ?_⟩
      rw [promote, merged]
      rfl
  | ok set =>
      have isDefault := default?_of_literal merged asked supplied isLiteral
      -- Declared variables keep their defaults, so this one would have two.
      obtain ⟨added, extended, _⟩ := (VariableSet.merge_extends merged).bindings
      rw [VariableSet.default?, VariableSet.get?_of_bindings_append extended declared] at isDefault
      exact absurd isDefault differs

/-- Promotion in the mode that was detected is faithful, and no literal replaces another default. -/
theorem isFaithful_of_detect
    (detected : PagingMode.detect schema field = .ok mode) :
    (∀ promotion, promote schema field mode existing = .ok promotion →
        promotion.IsFaithful schema field mode existing) ∧
      ∀ argument ∈ mode.arguments, ∀ value binding,
        field.argument? argument.name = some value → value.IsLiteral →
        existing.get? argument.name = some binding → binding.default ≠ some value →
          ∃ variableName passed found requested, promote schema field mode existing =
            .error (.variableCollision variableName passed found requested) :=
  ⟨fun _ => isFaithful_of_promote detected, fun _ asked _ _ => exists_collision_of_literal asked⟩

end Faithful

end Promotion

/-! ## A field that passes a literal -/

namespace Sample

/-- The field of the list with the arguments that it passes. -/
def itemsPassing (arguments : List Argument) : PaginatedField where
  name := items
  responseKey := items
  arguments
  path := [items]
  parentType := queryType
  pageSize := none
  span := none
  indices := [0]

def fiveAtATime : VariableBinding :=
  ⟨PagingArgument.limit.name, .named Name.intType false, some (.int "5"), .declared⟩

end Sample

namespace Promotion

/-- A limit is promoted faithfully, and it is refused where another is the default already. -/
theorem isFaithful_of_detect_limit :
    let field := Sample.itemsPassing [⟨PagingArgument.limit.name, .int "10"⟩]
    PagingMode.detect Sample.schema field = .ok .offset ∧
      (∃ promotion, promote Sample.schema field .offset VariableSet.empty = .ok promotion ∧
        promotion.IsFaithful Sample.schema field .offset VariableSet.empty) ∧
      ∃ variableName passed found requested,
        promote Sample.schema field .offset ⟨[Sample.fiveAtATime], by simp⟩ =
          .error (.variableCollision variableName passed found requested) := by
  intro field
  have detected : PagingMode.detect Sample.schema field = .ok .offset := by rfl
  refine ⟨detected, ⟨_, rfl, (isFaithful_of_detect detected).1 _ rfl⟩, ?_⟩
  exact (isFaithful_of_detect detected).2 .limit List.mem_cons_self (.int "10")
    Sample.fiveAtATime rfl (fun _ => nofun) rfl (by decide)

end Promotion

end QueryPaging
