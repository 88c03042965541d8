import QueryPaging.Promotion
import QueryPaging.Proofs.Declarations
import QueryPaging.Proofs.Merging

/-!
# Promoting twice

After promotion each paging argument of the field is a variable. The mode is then detected as
before, the same variables are asked for, and neither the variables nor the arguments change.
-/

namespace QueryPaging

/-! ## Detection -/

namespace PagingMode

theorem hasAny_of_mem_iff {enlarged supplied requested : List Name}
    (same : ∀ name, name ∈ enlarged ↔ name ∈ supplied ∨ name ∈ requested)
    (group : List PagingArgument) :
    hasAny enlarged group = (hasAny supplied group || hasAny requested group) := by
  rw [Bool.eq_iff_iff, Bool.or_eq_true]
  simp only [hasAny, List.any_eq_true, same]
  constructor
  · rintro ⟨name, before | requested, inGroup⟩
    · exact Or.inl ⟨name, before, inGroup⟩
    · exact Or.inr ⟨name, requested, inGroup⟩
  · rintro (⟨name, before, inGroup⟩ | ⟨name, requested, inGroup⟩)
    · exact ⟨name, Or.inl before, inGroup⟩
    · exact ⟨name, Or.inr requested, inGroup⟩

/-- The groups that the arguments of a mode belong to. -/
theorem hasAny_arguments (mode : PagingMode) :
    hasAny (mode.arguments.map PagingArgument.name) PagingArgument.forward =
        (mode.isCursor && mode != .cursorBackward) ∧
      hasAny (mode.arguments.map PagingArgument.name) PagingArgument.backward =
        (mode.isCursor && mode != .cursorForward) ∧
      hasAny (mode.arguments.map PagingArgument.name) PagingArgument.offsets =
        !mode.isCursor := by
  cases mode <;> decide

/-- The mode by the directions and the method that a field passes arguments for, that it declares
arguments for, and that it answers. -/
def modeBy (suppliedForward suppliedBackward suppliedOffset declaredForward declaredBackward
    declaredOffset bidirectional : Bool) : Option PagingMode :=
  if (suppliedForward || suppliedBackward) && suppliedOffset then
    none
  else if suppliedOffset then
    some .offset
  else if suppliedForward || suppliedBackward then
    some (cursor (suppliedForward || declaredForward) (suppliedBackward || declaredBackward))
  else if declaredForward || declaredBackward then
    some (cursor declaredForward declaredBackward)
  else if declaredOffset then
    some .offset
  else if bidirectional then
    some .cursorBoth
  else
    none

theorem classify_eq_ok_iff {field : PaginatedField} {supplied declared : List Name}
    {shape : ConnectionShape} {mode : PagingMode} :
    classify field supplied declared shape = .ok mode ↔
      modeBy (hasAny supplied PagingArgument.forward) (hasAny supplied PagingArgument.backward)
        (hasAny supplied PagingArgument.offsets) (hasAny declared PagingArgument.forward)
        (hasAny declared PagingArgument.backward) (hasAny declared PagingArgument.offsets)
        shape.isBidirectional = some mode := by
  simp only [classify, modeBy]
  repeat' split
  all_goals simp

/-- A mode is told again from the arguments that it asks for. -/
theorem modeBy_stable (mode : PagingMode) :
    ∀ suppliedForward suppliedBackward suppliedOffset declaredForward declaredBackward
      declaredOffset bidirectional : Bool,
      modeBy suppliedForward suppliedBackward suppliedOffset declaredForward declaredBackward
          declaredOffset bidirectional = some mode →
        modeBy (suppliedForward || (mode.isCursor && mode != .cursorBackward))
          (suppliedBackward || (mode.isCursor && mode != .cursorForward))
          (suppliedOffset || !mode.isCursor) declaredForward declaredBackward
          declaredOffset bidirectional = some mode := by
  cases mode <;> decide

/-- A field that passes all arguments of its mode, besides those it passed before, has the same
mode. -/
theorem classify_enlarged {field promoted : PaginatedField}
    {supplied enlarged declared : List Name} {shape : ConnectionShape} {mode : PagingMode}
    (result : classify field supplied declared shape = .ok mode)
    (same : ∀ name, name ∈ enlarged ↔
      name ∈ supplied ∨ name ∈ mode.arguments.map PagingArgument.name) :
    classify promoted enlarged declared shape = .ok mode := by
  obtain ⟨forward, backward, offsets⟩ := hasAny_arguments mode
  rw [classify_eq_ok_iff] at result ⊢
  simp only [hasAny_of_mem_iff same, forward, backward, offsets]
  exact modeBy_stable mode _ _ _ _ _ _ _ result

theorem fitting_eq_ok_iff {field : PaginatedField} {type : TypeRef} {shape : ConnectionShape}
    {mode fitted : PagingMode} :
    fitting field type shape mode = .ok fitted ↔
      (mode.isCursor && !shape.isConnection) = false ∧
        (mode == .offset && !type.isList) = false ∧ mode = fitted := by
  unfold fitting
  split
  · next unconnected => simp [unconnected]
  · next connected =>
      split
      · next unlisted => simp [unlisted]
      · next listed => simp [connected, listed]

/-- A field that passes all arguments of its mode, besides those it passed before, is detected to
have the same mode. -/
theorem detect_enlarged {schema : Schema} {field : PaginatedField} {arguments : List Argument}
    {mode : PagingMode}
    (result : detect schema field = .ok mode)
    (same : ∀ name, name ∈ arguments.map (·.name) ↔
      name ∈ field.arguments.map (·.name) ∨ name ∈ mode.arguments.map PagingArgument.name) :
    detect schema { field with arguments } = .ok mode := by
  unfold detect at result ⊢
  cases declared : schema.field? field.parentType field.name with
  | none => simp [declared] at result
  | some definition =>
      simp only [declared, bind, Except.bind] at result ⊢
      cases classified : classify field (field.arguments.map (·.name))
          (definition.arguments.map (·.name))
          (ConnectionShape.ofType schema definition.type.inner) with
      | error fault => simp [classified] at result
      | ok chosen =>
          simp only [classified] at result
          obtain ⟨connected, listed, rfl⟩ := fitting_eq_ok_iff.mp result
          rw [classify_enlarged classified same]
          exact fitting_eq_ok_iff.mpr ⟨connected, listed, rfl⟩

end PagingMode

/-! ## Requests -/

theorem PagingArgument.name_inj {left right : PagingArgument} :
    left.name = right.name ↔ left = right := by
  cases left <;> cases right <;> decide

namespace Promotion

section Requests

variable {definition : Option FieldDefinition} {field : PaginatedField} {mode : PagingMode}

@[simp]
theorem requestFor_argument (argument : PagingArgument) :
    (requestFor definition field mode argument).argument = argument.name := by
  unfold requestFor
  split <;> rfl

@[simp]
theorem requestFor_type (argument : PagingArgument) :
    (requestFor definition field mode argument).type = typeFor definition argument := by
  unfold requestFor
  split <;> rfl

@[simp]
theorem requestFor_origin (argument : PagingArgument) :
    (requestFor definition field mode argument).origin = .promoted := by
  unfold requestFor
  split <;> rfl

theorem requestFor_reference {argument : PagingArgument} {passed : Name}
    (supplied : field.argument? argument.name = some (.reference passed)) :
    requestFor definition field mode argument =
      ⟨passed, typeFor definition argument, argument.name, .promoted, .reference⟩ := by
  simp only [requestFor, supplied]

/-- The variable asked for is the one passed, or else it is called like the argument. -/
theorem requestFor_name (definition : Option FieldDefinition) (field : PaginatedField)
    (mode : PagingMode) (argument : PagingArgument) :
    (∃ passed, field.argument? argument.name = some (.reference passed) ∧
      (requestFor definition field mode argument).name = passed) ∨
    (∀ passed, field.argument? argument.name ≠ some (.reference passed)) ∧
      (requestFor definition field mode argument).name = argument.name := by
  unfold requestFor
  split
  · next passed supplied => exact Or.inl ⟨passed, supplied, rfl⟩
  · next value notReference supplied =>
      refine Or.inr ⟨fun passed same => ?_, rfl⟩
      rw [supplied, Option.some.injEq] at same
      exact notReference passed same
  · next supplied =>
      refine Or.inr ⟨fun passed same => ?_, rfl⟩
      rw [supplied] at same
      cases same

/-- The variables that some arguments are bound to. -/
def bindingsOf (requests : List VariableRequest) : Table Name Name :=
  requests.map fun request => (request.argument, request.name)

theorem get?_bindingsOf (definition : Option FieldDefinition) (field : PaginatedField)
    (mode : PagingMode) {arguments : List PagingArgument} {argument : PagingArgument}
    (member : argument ∈ arguments) :
    Table.get? argument.name (bindingsOf (arguments.map (requestFor definition field mode))) =
      some (requestFor definition field mode argument).name := by
  induction arguments with
  | nil => simp at member
  | cons foremost others inductionHypothesis =>
      rw [List.map_cons, bindingsOf, List.map_cons, Table.get?]
      by_cases same : foremost = argument
      · subst same
        rw [if_pos (requestFor_argument foremost)]
      · rw [requestFor_argument, if_neg (fun equal => same (PagingArgument.name_inj.mp equal))]
        exact inductionHypothesis ((List.mem_cons.mp member).resolve_left (Ne.symm same))

theorem keys_bindingsOf (arguments : List PagingArgument) :
    (bindingsOf (arguments.map (requestFor definition field mode))).keys =
      arguments.map PagingArgument.name := by
  simp [bindingsOf, Table.keys]

end Requests

/-! ## Arguments -/

section Arguments

variable {bindings : Table Name Name} {written : List Argument} {name : Name}

@[simp]
theorem promoteArgument_name (bindings : Table Name Name) (argument : Argument) :
    (promoteArgument bindings argument).name = argument.name := by
  unfold promoteArgument
  split <;> rfl

@[simp]
theorem promoteArgument_reference (bindings : Table Name Name) (name passed : Name) :
    promoteArgument bindings ⟨name, .reference passed⟩ = ⟨name, .reference passed⟩ :=
  rfl

theorem promoteArgument_of_get?_eq_none {argument : Argument}
    (free : bindings.get? argument.name = none) :
    promoteArgument bindings argument = argument := by
  unfold promoteArgument
  rw [free]
  split
  · rfl
  · next some _ => cases some
  · rfl

theorem promoteArgument_of_get?_eq_some {argument : Argument} {bound : Name}
    (literal : ∀ passed, argument.value ≠ .reference passed)
    (isBound : bindings.get? argument.name = some bound) :
    promoteArgument bindings argument = ⟨argument.name, .reference bound⟩ := by
  unfold promoteArgument
  rw [isBound]
  split
  · next passed reference => exact absurd reference (literal passed)
  · next same _ => rw [Option.some.inj same]
  · next none _ => cases none

@[simp]
theorem promoteArgument_promoteArgument (bindings : Table Name Name) (argument : Argument) :
    promoteArgument bindings (promoteArgument bindings argument) =
      promoteArgument bindings argument := by
  cases bound : bindings.get? argument.name with
  | none =>
      have same := promoteArgument_of_get?_eq_none bound
      rw [same, same]
  | some variableName =>
      obtain ⟨name, value⟩ := argument
      by_cases isReference : ∃ passed, value = .reference passed
      · obtain ⟨passed, rfl⟩ := isReference
        rfl
      · have replaced := promoteArgument_of_get?_eq_some
          (fun passed same => isReference ⟨passed, same⟩) bound
        rw [replaced, promoteArgument_reference]

theorem any_name_eq_true_iff :
    (written.any (·.name == name)) = true ↔ name ∈ written.map (·.name) := by
  rw [List.any_eq_true, List.mem_map]
  exact exists_congr fun argument => and_congr_right fun _ => beq_iff_eq

/-- The field passes what it passed, and every bound argument. -/
theorem mem_names_promoteArguments :
    name ∈ (promoteArguments bindings written).map (·.name) ↔
      name ∈ written.map (·.name) ∨ name ∈ bindings.keys := by
  rw [promoteArguments, List.map_append, List.mem_append, List.map_map, List.map_map]
  have kept : (written.map ((·.name) ∘ promoteArgument bindings)) = written.map (·.name) := by
    simp [Function.comp_def]
  rw [kept]
  constructor
  · rintro (before | missing)
    · exact Or.inl before
    · obtain ⟨entry, among, rfl⟩ := List.mem_map.mp missing
      exact Or.inr (List.mem_map_of_mem (List.mem_filter.mp among).1)
  · rintro (before | bound)
    · exact Or.inl before
    · by_cases before : name ∈ written.map (·.name)
      · exact Or.inl before
      · obtain ⟨entry, among, rfl⟩ := List.mem_map.mp bound
        refine Or.inr (List.mem_map.mpr ⟨entry, List.mem_filter.mpr ⟨among, ?_⟩, rfl⟩)
        rw [Bool.not_eq_true', ← Bool.not_eq_true, any_name_eq_true_iff]
        exact before

@[simp]
theorem promoteArguments_promoteArguments (bindings : Table Name Name)
    (written : List Argument) :
    promoteArguments bindings (promoteArguments bindings written) =
      promoteArguments bindings written := by
  have nothingMissing : (bindings.filter fun entry =>
      !(promoteArguments bindings written).any (·.name == entry.1)) = [] := by
    refine List.filter_eq_nil_iff.mpr fun entry member => ?_
    rw [Bool.not_eq_true', Bool.not_eq_false, any_name_eq_true_iff, mem_names_promoteArguments]
    exact Or.inr (List.mem_map_of_mem member)
  have settled : ∀ argument ∈ promoteArguments bindings written,
      promoteArgument bindings argument = argument := by
    intro argument member
    rcases List.mem_append.mp member with before | added
    · obtain ⟨source, _, rfl⟩ := List.mem_map.mp before
      exact promoteArgument_promoteArgument bindings source
    · obtain ⟨entry, _, rfl⟩ := List.mem_map.mp added
      rfl
  rw [promoteArguments, nothingMissing, List.map_nil, List.append_nil]
  exact (List.map_congr_left settled).trans (List.map_id _)

theorem find?_missing
    (absent : name ∉ written.map (·.name)) :
    ((bindings.filter fun entry => !written.any (·.name == entry.1)).map
        fun entry => (⟨entry.1, .reference entry.2⟩ : Argument)).find? (·.name == name) =
      (bindings.get? name).map fun bound => ⟨name, .reference bound⟩ := by
  induction bindings with
  | nil => rfl
  | cons entry others inductionHypothesis =>
      obtain ⟨key, bound⟩ := entry
      rw [Table.get?]
      by_cases same : key = name
      · subst same
        have missing : (!written.any (·.name == key)) = true := by
          rw [Bool.not_eq_true', ← Bool.not_eq_true, any_name_eq_true_iff]
          exact absent
        simp [missing]
      · rw [if_neg same, ← inductionHypothesis, List.filter_cons]
        split
        · simp [same]
        · rfl

/-- The first argument of a name after promotion. -/
theorem find?_promoteArguments (bindings : Table Name Name) (written : List Argument)
    (name : Name) :
    (promoteArguments bindings written).find? (·.name == name) =
      match written.find? (·.name == name) with
      | some argument => some (promoteArgument bindings argument)
      | none => (bindings.get? name).map fun bound => ⟨name, .reference bound⟩ := by
  have sameName : (fun argument : Argument => argument.name == name) ∘ promoteArgument bindings =
      fun argument => argument.name == name := by
    funext argument
    simp
  rw [promoteArguments, List.find?_append, List.find?_map, sameName]
  cases supplied : written.find? (·.name == name) with
  | some argument => rfl
  | none =>
      have absent : name ∉ written.map (·.name) := by
        simpa [List.find?_eq_none] using supplied
      rw [Option.map_none, Option.none_or]
      exact find?_missing absent

end Arguments

/-! ## Promotion -/

section Promote

variable {schema : Schema} {field : PaginatedField} {mode : PagingMode}
  {existing : VariableSet} {promotion : Promotion}

theorem promote_eq_ok_iff :
    promote schema field mode existing = .ok promotion ↔
      existing.merge (requests schema field mode) = .ok promotion.variableSet ∧
        promotion.bindings = bindingsOf (requests schema field mode) ∧
        promotion.arguments = promoteArguments promotion.bindings field.arguments := by
  obtain ⟨variableSet, arguments, bindings⟩ := promotion
  simp only [promote, bind, Except.bind, pure, Except.pure]
  cases existing.merge (requests schema field mode) with
  | error fault => simp
  | ok set =>
      simp only [Except.ok.injEq, Promotion.mk.injEq]
      constructor
      · rintro ⟨rfl, rfl, rfl⟩
        exact ⟨rfl, rfl, rfl⟩
      · rintro ⟨rfl, rfl, rfl⟩
        exact ⟨rfl, rfl, rfl⟩

/-- After promotion each paging argument passes the variable that was asked for. -/
theorem argument?_promoted {definition : Option FieldDefinition} {argument : PagingArgument}
    (member : argument ∈ mode.arguments) :
    PaginatedField.argument? { field with
        arguments := promoteArguments
          (bindingsOf (mode.arguments.map (requestFor definition field mode)))
          field.arguments } argument.name =
      some (.reference (requestFor definition field mode argument).name) := by
  unfold PaginatedField.argument?
  rw [find?_promoteArguments, get?_bindingsOf definition field mode member]
  cases supplied : field.arguments.find? (·.name == argument.name) with
  | none => rfl
  | some written =>
      have called : written.name = argument.name := by
        simpa using List.find?_some supplied
      have value : field.argument? argument.name = some written.value := by
        simp [PaginatedField.argument?, supplied]
      rcases requestFor_name definition field mode argument with ⟨passed, isPassed, same⟩ | ⟨notPassed, _⟩
      · rw [value, Option.some.injEq] at isPassed
        have kept : promoteArgument
            (bindingsOf (mode.arguments.map (requestFor definition field mode))) written =
              written := by
          obtain ⟨name, term⟩ := written
          cases isPassed
          rfl
        rw [Option.map_some, kept, same, isPassed]
      · rw [value] at notPassed
        have bound := get?_bindingsOf definition field mode member
        rw [← called] at bound
        have replaced := promoteArgument_of_get?_eq_some
          (fun passed reference => notPassed passed (congrArg some reference)) bound
        rw [Option.map_some, replaced]

/-- A request for the same variable, once the variable is passed. -/
def again (request : VariableRequest) : VariableRequest :=
  { request with kind := .reference }

/-- Once promoted, the field asks for the same variables, and passes all of them. -/
theorem requests_promoted
    (result : promote schema field mode existing = .ok promotion) :
    requests schema { field with arguments := promotion.arguments } mode =
      (requests schema field mode).map again := by
  obtain ⟨_, bound, passed⟩ := promote_eq_ok_iff.mp result
  rw [passed, bound, requests, requests, List.map_map]
  refine List.map_congr_left fun argument member => ?_
  refine (requestFor_reference (argument?_promoted member)).trans ?_
  simp [again]

/-- Promoting a promoted field changes neither the variables nor the arguments. -/
theorem promote_promoted
    (result : promote schema field mode existing = .ok promotion) :
    promote schema { field with arguments := promotion.arguments } mode
        promotion.variableSet.asDeclared =
      .ok { promotion with variableSet := promotion.variableSet.asDeclared } := by
  obtain ⟨merged, bound, passed⟩ := promote_eq_ok_iff.mp result
  rw [promote_eq_ok_iff, requests_promoted result]
  refine ⟨VariableSet.merge_eq_self_of_suits ?_, ?_, ?_⟩
  · intro request member
    obtain ⟨source, among, rfl⟩ := List.mem_map.mp member
    obtain ⟨argument, _, rfl⟩ := List.mem_map.mp among
    obtain ⟨binding, isBound, suits⟩ := VariableSet.exists_suits_of_merge merged _ among
    refine ⟨VariableSet.authoredBinding binding, ?_, suits.type, nofun, nofun, by simp [again]⟩
    rw [VariableSet.get?_asDeclared]
    exact congrArg (Option.map VariableSet.authoredBinding) isBound
  · rw [bound, bindingsOf, bindingsOf, List.map_map]
    rfl
  · rw [passed, promoteArguments_promoteArguments]

/-- The mode of a promoted field is detected as before. -/
theorem detect_promoted
    (detected : PagingMode.detect schema field = .ok mode)
    (result : promote schema field mode existing = .ok promotion) :
    PagingMode.detect schema { field with arguments := promotion.arguments } = .ok mode := by
  obtain ⟨_, bound, passed⟩ := promote_eq_ok_iff.mp result
  refine PagingMode.detect_enlarged detected fun name => ?_
  rw [passed, mem_names_promoteArguments, bound, requests, keys_bindingsOf]

end Promote

end Promotion

end QueryPaging
