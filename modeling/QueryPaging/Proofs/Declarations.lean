import QueryPaging.Document
import QueryPaging.Proofs.TypeText
import QueryPaging.Proofs.VariableSets

/-!
# Declarations written and read

A document that was made to declare the variables of a set declares just these. They are read back
in order, with their types and defaults, as if its author had written them, and writing them once
more changes nothing.
-/

namespace QueryPaging

namespace VariableSet

def authoredBinding (binding : VariableBinding) : VariableBinding :=
  { binding with origin := .declared }

/-- The variables as the author of a document might have written them. -/
def asDeclared (set : VariableSet) : VariableSet where
  bindings := set.bindings.map authoredBinding
  distinct := by
    rw [List.map_map]
    exact set.distinct

@[simp]
theorem bindings_asDeclared (set : VariableSet) :
    set.asDeclared.bindings = set.bindings.map authoredBinding :=
  rfl

@[simp]
theorem names_asDeclared (set : VariableSet) :
    set.asDeclared.names = set.names := by
  rw [names, bindings_asDeclared, List.map_map]
  rfl

theorem get?_asDeclared (set : VariableSet) (name : Name) :
    set.asDeclared.get? name = (set.get? name).map authoredBinding := by
  rw [get?, bindings_asDeclared, List.find?_map]
  rfl

@[simp]
theorem default?_asDeclared (set : VariableSet) (name : Name) :
    set.asDeclared.default? name = set.default? name := by
  rw [default?, get?_asDeclared, default?]
  cases set.get? name <;> rfl

@[simp]
theorem parameters_asDeclared (set : VariableSet) :
    set.asDeclared.parameters = set.parameters := by
  rw [parameters, bindings_asDeclared, List.map_map]
  rfl

@[simp]
theorem isEmpty_asDeclared (set : VariableSet) :
    set.asDeclared.isEmpty = set.isEmpty := by
  simp [isEmpty]

theorem map_ofParameter_parameters (set : VariableSet) :
    set.parameters.map ofParameter = set.asDeclared.bindings := by
  rw [parameters, List.map_map, bindings_asDeclared]
  rfl

theorem map_ofDefinition_toDefinition (bindings : List VariableBinding) :
    (bindings.map toDefinition).map ofDefinition = bindings.map authoredBinding := by
  rw [List.map_map]
  rfl

/-- What an operation declares was written by its author. -/
theorem map_authoredBinding_ofOperation (operation : Operation) :
    (ofOperation operation).bindings.map authoredBinding = (ofOperation operation).bindings := by
  refine (List.map_congr_left fun binding member => ?_).trans (List.map_id _)
  obtain ⟨definition, _, rfl⟩ := List.mem_map.mp (mem_of_mem_ofBindings member)
  rfl

end VariableSet

/-! ## Parameters of fragments -/

namespace PassDirective

/-- A parameter that was written as an argument is read back from it. -/
theorem parameterOf_encodeParameter (parameter : FragmentParameter) :
    parameterOf (encodeParameter parameter) = .ok parameter := by
  obtain ⟨name, type, default⟩ := parameter
  have differ : Name.typeKey ≠ defaultKey := by decide
  cases default with
  | none =>
      simp [parameterOf, encodeParameter, draftStep, differ, bind, Except.bind, pure, Except.pure]
  | some value =>
      simp [parameterOf, encodeParameter, draftStep, differ, bind, Except.bind, pure, Except.pure]

theorem mapM_parameterOf_encodeParameter (parameters : List FragmentParameter) :
    (parameters.map encodeParameter).mapM parameterOf = .ok parameters := by
  induction parameters with
  | nil => rfl
  | cons parameter parameters inductionHypothesis =>
      rw [List.map_cons, List.mapM_cons, parameterOf_encodeParameter, inductionHypothesis]
      rfl

/-- The directive that declares some parameters is decoded to these. -/
theorem decode_encodeArguments (parameters : List FragmentParameter) :
    decode (encodeArguments parameters) = .ok (some (.arguments parameters)) := by
  have differ : argumentsName ≠ paginateName := by decide
  unfold decode
  rw [encodeArguments, if_neg differ, if_pos rfl, mapM_parameterOf_encodeParameter]
  rfl

end PassDirective

@[simp]
theorem Definition.selections_withSelections (definition : Definition)
    (selections : List Selection) :
    (definition.withSelections selections).selections = selections := by
  cases definition <;> rfl

@[simp]
theorem Definition.withSelections_withSelections (definition : Definition)
    (selections replacement : List Selection) :
    (definition.withSelections selections).withSelections replacement =
      definition.withSelections replacement := by
  cases definition <;> rfl

namespace Document

/-! ## Declarations of operations -/

section Operations

variable {set : VariableSet} {operation : Operation} {added : List VariableBinding}

theorem any_name_eq_true_iff {declarations : List VariableDefinition} {name : Name} :
    (declarations.any (·.name == name)) = true ↔
      name ∈ (declarations.map VariableSet.ofDefinition).map (·.name) := by
  rw [List.any_eq_true, List.map_map, List.mem_map]
  exact exists_congr fun declaration => and_congr_right fun _ => beq_iff_eq

theorem mem_names_ofOperation {name : Name} :
    name ∈ (VariableSet.ofOperation operation).names ↔
      (operation.declarations.any (·.name == name)) = true := by
  rw [VariableSet.ofOperation, VariableSet.mem_names_ofBindings, any_name_eq_true_iff]

/-- The bindings an operation lacks are those behind its own. -/
theorem missing_eq_added
    (extended : set.bindings = (VariableSet.ofOperation operation).bindings ++ added) :
    (set.bindings.filter fun binding =>
      !operation.declarations.any (·.name == binding.name)) = added := by
  have distinct := set.distinct
  rw [extended, List.map_append, List.nodup_append] at distinct
  rw [extended, List.filter_append]
  have own : ((VariableSet.ofOperation operation).bindings.filter fun binding =>
      !operation.declarations.any (·.name == binding.name)) = [] := by
    refine List.filter_eq_nil_iff.mpr fun binding member => ?_
    rw [mem_names_ofOperation.mp (List.mem_map_of_mem member)]
    decide
  have new : (added.filter fun binding =>
      !operation.declarations.any (·.name == binding.name)) = added := by
    refine List.filter_eq_self.mpr fun binding member => ?_
    rw [Bool.not_eq_true', Bool.eq_false_iff]
    intro present
    exact distinct.2.2 _ (mem_names_ofOperation.mpr present) _ (List.mem_map_of_mem member) rfl
  rw [own, new, List.nil_append]

/-- The variables written into an operation are read back. -/
theorem ofOperation_declared
    (extended : set.bindings = (VariableSet.ofOperation operation).bindings ++ added) :
    VariableSet.ofOperation { operation with
        declarations := operation.declarations ++ added.map VariableSet.toDefinition } =
      set.asDeclared := by
  apply VariableSet.ext_bindings
  have distinct :
      (((VariableSet.ofOperation operation).bindings
        ++ added.map VariableSet.authoredBinding).map (·.name)).Nodup := by
    have names := set.distinct
    rw [extended] at names
    simpa [Function.comp_def, VariableSet.authoredBinding] using names
  rw [VariableSet.ofOperation, List.map_append, VariableSet.map_ofDefinition_toDefinition,
    VariableSet.ofBindings_append]
  refine (VariableSet.bindings_foldl_insert _ distinct).trans ?_
  rw [VariableSet.bindings_asDeclared, extended, List.map_append,
    VariableSet.map_authoredBinding_ofOperation]

end Operations

/-! ## Declarations of fragments -/

theorem findArguments?_declareParameters (set : VariableSet) (directives : List Directive) :
    PassDirective.findArguments? (declareParameters set directives) =
        some (PassDirective.encodeArguments set.parameters) ∨
      set.isEmpty = true ∧
        PassDirective.findArguments? (declareParameters set directives) = none := by
  have isOwn : (PassDirective.encodeArguments set.parameters).name.text =
      PassDirective.argumentsName.text := rfl
  induction directives with
  | nil =>
      unfold declareParameters
      split
      · next empty => exact Or.inr ⟨empty, rfl⟩
      · exact Or.inl (by simp [PassDirective.findArguments?, findDirective?, isOwn])
  | cons first others inductionHypothesis =>
      rw [declareParameters]
      split
      · exact Or.inl (by simp [PassDirective.findArguments?, findDirective?, isOwn])
      · next different =>
          have passedOver : (first.name.text == PassDirective.argumentsName.text) = false := by
            rw [beq_eq_false_iff_ne]
            exact fun same => different (Name.eq_of_text_eq same)
          simpa [PassDirective.findArguments?, findDirective?, passedOver] using
            inductionHypothesis

/-- The parameters written into a fragment are read back. -/
theorem ofFragment_declared (set : VariableSet) (fragment : Fragment) :
    VariableSet.ofFragment { fragment with
        directives := declareParameters set fragment.directives } =
      .ok set.asDeclared := by
  unfold VariableSet.ofFragment
  rcases findArguments?_declareParameters set fragment.directives with found | ⟨empty, none⟩
  · rw [found]
    simp only [PassDirective.decode_encodeArguments]
    have same : VariableSet.ofBindings (set.parameters.map VariableSet.ofParameter) =
        set.asDeclared := by
      apply VariableSet.ext_bindings
      rw [VariableSet.map_ofParameter_parameters]
      exact VariableSet.bindings_ofBindings set.asDeclared.distinct
    rw [← same]
    rfl
  · rw [none]
    have same : VariableSet.empty = set.asDeclared := by
      apply VariableSet.ext_bindings
      rw [VariableSet.bindings_asDeclared, List.isEmpty_iff.mp empty]
      rfl
    rw [same]

/-- Declaring the same parameters once more changes nothing. -/
theorem declareParameters_declareParameters (set : VariableSet) (directives : List Directive) :
    declareParameters set.asDeclared (declareParameters set directives) =
      declareParameters set directives := by
  induction directives with
  | nil =>
      cases empty : set.isEmpty with
      | true => simp [declareParameters, empty]
      | false => simp [declareParameters, empty, PassDirective.encodeArguments]
  | cons first others inductionHypothesis =>
      rw [declareParameters]
      split
      · simp [declareParameters, PassDirective.encodeArguments]
      · next different => rw [declareParameters, if_neg different, inductionHypothesis]

/-! ## Declarations of definitions -/

def variableSetOf : Definition → Except Fault VariableSet
  | .operation body => .ok (VariableSet.ofOperation body)
  | .fragment body => VariableSet.ofFragment body

theorem variableSet_eq {document : Document} {definition : Definition}
    (primary : document.primary? = some definition) :
    document.variableSet = variableSetOf definition := by
  unfold variableSet
  rw [primary]
  cases definition <;> rfl

/-- The parameters of a fragment are none, or those that its first `@arguments` is decoded to. -/
theorem eq_empty_or_of_ofFragment {fragment : Fragment} {set : VariableSet}
    (read : VariableSet.ofFragment fragment = .ok set) :
    set = VariableSet.empty ∨ ∃ directive parameters,
      PassDirective.findArguments? fragment.directives = some directive ∧
        PassDirective.decode directive = .ok (some (.arguments parameters)) ∧
        set = VariableSet.ofBindings (parameters.map VariableSet.ofParameter) := by
  rw [VariableSet.ofFragment] at read
  split at read
  · cases read
    exact Or.inl rfl
  · next directive found =>
      cases decoded : PassDirective.decode directive with
      | error fault => simp [decoded, bind, Except.bind] at read
      | ok pass =>
          simp only [decoded, bind, Except.bind, pure, Except.pure] at read
          rcases pass with _ | (pageSize | parameters | values)
          case some.arguments =>
            cases read
            exact Or.inr ⟨directive, parameters, found, decoded, rfl⟩
          all_goals
            cases read
            exact Or.inl rfl

/-- Whatever a definition declares was written by its author. -/
theorem origin_eq_declared {definition : Definition} {set : VariableSet}
    {binding : VariableBinding}
    (read : variableSetOf definition = .ok set)
    (member : binding ∈ set.bindings) :
    binding.origin = .declared := by
  cases definition with
  | operation body =>
      cases read
      obtain ⟨declaration, _, rfl⟩ :=
        List.mem_map.mp (VariableSet.mem_of_mem_ofBindings member)
      rfl
  | fragment body =>
      rcases eq_empty_or_of_ofFragment read with rfl | ⟨_, parameters, _, _, rfl⟩
      · cases member
      · obtain ⟨parameter, _, rfl⟩ :=
          List.mem_map.mp (VariableSet.mem_of_mem_ofBindings member)
        rfl

@[simp]
theorem selections_declareIn (set : VariableSet) (definition : Definition) :
    (declareIn set definition).selections = definition.selections := by
  cases definition <;> rfl

@[simp]
theorem variableSetOf_withSelections (definition : Definition) (selections : List Selection) :
    variableSetOf (definition.withSelections selections) = variableSetOf definition := by
  cases definition <;> rfl

theorem variableSetOf_declareIn {definition : Definition} {existing set : VariableSet}
    {added : List VariableBinding}
    (read : variableSetOf definition = .ok existing)
    (extended : set.bindings = existing.bindings ++ added) :
    variableSetOf (declareIn set definition) = .ok set.asDeclared := by
  cases definition with
  | operation body =>
      cases read
      rw [declareIn, missing_eq_added extended, variableSetOf, ofOperation_declared extended]
  | fragment body => exact ofFragment_declared set body

/-- Declaring the variables once more changes nothing. -/
theorem declareIn_declareIn (definition : Definition) (set : VariableSet)
    (selections : List Selection) :
    declareIn set.asDeclared ((declareIn set definition).withSelections selections) =
      (declareIn set definition).withSelections selections := by
  cases definition with
  | operation body =>
      have nothing :
          (set.asDeclared.bindings.filter fun binding =>
            !(body.declarations ++ (set.bindings.filter fun binding =>
              !body.declarations.any (·.name == binding.name)).map
                VariableSet.toDefinition).any (·.name == binding.name)) = [] := by
        refine List.filter_eq_nil_iff.mpr fun binding member => ?_
        obtain ⟨source, among, rfl⟩ := List.mem_map.mp member
        rw [Bool.not_eq_true', Bool.not_eq_false, List.any_append, Bool.or_eq_true]
        cases present : body.declarations.any (·.name == source.name) with
        | true => exact Or.inl present
        | false =>
            refine Or.inr (List.any_eq_true.mpr ⟨VariableSet.toDefinition source, ?_, ?_⟩)
            · exact List.mem_map_of_mem (List.mem_filter.mpr ⟨among, by simp [present]⟩)
            · simp [VariableSet.toDefinition, VariableSet.authoredBinding]
      simp only [declareIn, Definition.withSelections]
      rw [nothing, List.map_nil, List.append_nil]
  | fragment body =>
      simp only [declareIn, Definition.withSelections, declareParameters_declareParameters]

end Document

end QueryPaging
