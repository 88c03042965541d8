import QueryPaging.Proofs.Merging
import QueryPaging.Proofs.Passage

/-!
# Faults and their stages

Each stage of the first phase comes up with faults of its own. No stage loses the field that was
found, so no document is said to be left alone because its field moved.

- `Stage.Raises`: the faults of each stage.
- `Pipeline.raises_of_process`: a diagnostic of the first phase has a fault of its stage.
-/

namespace QueryPaging

/-- The faults that the stages of the first phase may come up with. -/
inductive Stage.Raises : Stage → Fault → Prop where
  | malformed (cause : DirectiveCause) : Raises .decode (.malformedDirective cause)
  | multiple (first second : List Name) : Raises .decode (.multipleFields first second)
  | operation (kind : OperationKind) : Raises .decode (.unsupportedOperation kind)
  | parent (subject : String) : Raises .decode (.unsupportedShape subject .unknownParent)
  | undeclared (subject : String) (type field : Name) :
      Raises .detectMode (.unsupportedShape subject (.undeclaredField type field))
  | ambiguous (path cursor offset : List Name) :
      Raises .detectMode (.ambiguousMode path cursor offset)
  | unpageable (subject : String) : Raises .detectMode (.unsupportedShape subject .notPageable)
  | unconnected (subject : String) (type : Name) :
      Raises .detectMode (.unsupportedShape subject (.notConnection type))
  | unlisted (subject : String) (type : TypeRef) :
      Raises .detectMode (.unsupportedShape subject (.notList type))
  | collision (variableName argument : Name) (existing requested : TypeRef) :
      Raises .promoteArguments (.variableCollision variableName argument existing requested)
  | identity (type : String) (cause : IdentityCause) :
      Raises .buildSpec (.unresolvableIdentity type cause)
  | invalid (text : String) : Raises .buildSpec (.invalidName text)

variable {fault : Fault}

/-! ## Decoding -/

namespace PassDirective

theorem raises_of_pageSizeStep {pageSize : Option Value} {argument : Argument}
    (failed : pageSizeStep pageSize argument = .error fault) :
    Stage.decode.Raises fault := by
  unfold pageSizeStep at failed
  split at failed
  · split at failed
    · cases failed
    · cases failed
      exact .malformed _
  · cases failed
    exact .malformed _

theorem raises_of_draftStep {parameter : Name} {draft : ParameterDraft} {entry : Name × Value}
    (failed : draftStep parameter draft entry = .error fault) :
    Stage.decode.Raises fault := by
  unfold draftStep at failed
  repeat' split at failed
  all_goals
    cases failed
    try exact .malformed _

theorem raises_of_parameterOf {argument : Argument}
    (failed : parameterOf argument = .error fault) :
    Stage.decode.Raises fault := by
  unfold parameterOf at failed
  split at failed
  · rcases Pipeline.bind_eq_error_iff.mp failed with reading | ⟨draft, _, typeless⟩
    · obtain ⟨_, _, _, step⟩ := Pipeline.exists_failed_of_foldlM reading
      exact raises_of_draftStep step
    · split at typeless
      · cases typeless
      · cases typeless
        exact .malformed _
  · cases failed
    exact .malformed _

theorem raises_of_decode {directive : Directive}
    (failed : decode directive = .error fault) :
    Stage.decode.Raises fault := by
  unfold decode at failed
  split at failed
  · rcases Pipeline.bind_eq_error_iff.mp failed with reading | ⟨_, _, whole⟩
    · obtain ⟨_, _, _, step⟩ := Pipeline.exists_failed_of_foldlM reading
      exact raises_of_pageSizeStep step
    · cases whole
  split at failed
  · rcases Pipeline.bind_eq_error_iff.mp failed with reading | ⟨_, _, whole⟩
    · obtain ⟨_, _, step⟩ := Pipeline.exists_failed_of_mapM reading
      exact raises_of_parameterOf step
    · cases whole
  split at failed
  · cases failed
  · cases failed

end PassDirective

theorem PaginatedField.raises_of_ofMarked {found : MarkedField}
    (failed : ofMarked found = .error fault) :
    Stage.decode.Raises fault := by
  rcases Pipeline.bind_eq_error_iff.mp failed with unread | ⟨pageSize, _, orphan⟩
  · rcases Pipeline.bind_eq_error_iff.mp unread with malformed | ⟨decoded, _, other⟩
    · exact PassDirective.raises_of_decode malformed
    · split at other
      · cases other
      · cases other
  · split at orphan
    · cases orphan
      exact .parent _
    · cases orphan

theorem PaginatedField.raises_of_find {schema : Schema} {document : Document}
    (failed : find schema document = .error fault) :
    Stage.decode.Raises fault := by
  unfold find findIn at failed
  split at failed
  · cases failed
  split at failed
  · cases failed
  · cases failed
    exact .multiple _ _
  · next found _ =>
      split at failed
      · cases failed
        exact .operation _
      · cases failed
        exact .operation _
      · cases read : ofMarked found with
        | ok field =>
            rw [read] at failed
            cases failed
        | error fault =>
            rw [read] at failed
            cases failed
            exact raises_of_ofMarked read

theorem Document.raises_of_variableSet {document : Document}
    (failed : document.variableSet = .error fault) :
    Stage.decode.Raises fault := by
  unfold variableSet at failed
  split at failed
  · cases failed
  · unfold VariableSet.ofFragment at failed
    split at failed
    · cases failed
    · rcases Pipeline.bind_eq_error_iff.mp failed with malformed | ⟨decoded, _, other⟩
      · exact PassDirective.raises_of_decode malformed
      · split at other
        · cases other
        · cases other
  · cases failed

/-! ## The later stages -/

theorem PagingMode.raises_of_detect {schema : Schema} {field : PaginatedField}
    (failed : detect schema field = .error fault) :
    Stage.detectMode.Raises fault := by
  unfold detect at failed
  split at failed
  · cases failed
    exact .undeclared ..
  · rcases Pipeline.bind_eq_error_iff.mp failed with unclear | ⟨mode, _, unfit⟩
    · simp only [classify] at unclear
      repeat' split at unclear
      all_goals cases unclear
      · exact .ambiguous ..
      · exact .unpageable _
    · unfold fitting at unfit
      repeat' split at unfit
      all_goals cases unfit
      · exact .unconnected ..
      · exact .unlisted ..

theorem VariableSet.exists_collision_of_merge {set : VariableSet} {requests : List VariableRequest}
    (failed : set.merge requests = .error fault) :
    ∃ variableName argument existing requested,
      fault = .variableCollision variableName argument existing requested := by
  cases isRefused_of_merge failed with
  | contradiction => exact ⟨_, _, _, _, rfl⟩

theorem Promotion.raises_of_promote {schema : Schema} {field : PaginatedField} {mode : PagingMode}
    {existing : VariableSet}
    (failed : promote schema field mode existing = .error fault) :
    Stage.promoteArguments.Raises fault := by
  rcases Pipeline.bind_eq_error_iff.mp failed with collides | ⟨set, _, whole⟩
  · obtain ⟨_, _, _, _, rfl⟩ := VariableSet.exists_collision_of_merge collides
    exact .collision ..
  · cases whole

theorem Name.raises_of_require {text : String}
    (failed : Name.require text = .error fault) :
    Stage.buildSpec.Raises fault := by
  unfold require at failed
  split at failed
  · cases failed
  · cases failed
    exact .invalid _

theorem Identity.raises_of_argumentFor {type : String} {root : Name} {resolver : ResolverConfig}
    {lookup : FieldDefinition} {key : String}
    (failed : argumentFor type root resolver lookup key = .error fault) :
    Stage.buildSpec.Raises fault := by
  unfold argumentFor at failed
  simp only at failed
  split at failed
  · cases failed
    exact .identity ..
  · rcases Pipeline.bind_eq_error_iff.mp failed with unnamed | ⟨name, _, whole⟩
    · exact Name.raises_of_require unnamed
    · cases whole

theorem Identity.raises_of_resolveBy {schema : Schema} {config : IdentityConfig} {type : String}
    {root : Name} {resolver : ResolverConfig}
    (failed : resolveBy schema config type root resolver = .error fault) :
    Stage.buildSpec.Raises fault := by
  rcases Pipeline.bind_eq_error_iff.mp failed with unnamed | ⟨queryField, _, failed⟩
  · exact Name.raises_of_require unnamed
  split at failed
  · cases failed
    exact .identity ..
  rcases Pipeline.bind_eq_error_iff.mp failed with missing | ⟨arguments, _, failed⟩
  · obtain ⟨_, _, step⟩ := Pipeline.exists_failed_of_mapM missing
    exact raises_of_argumentFor step
  rcases Pipeline.bind_eq_error_iff.mp failed with unnamed | ⟨name, _, whole⟩
  · exact Name.raises_of_require unnamed
  · cases whole

theorem Identity.raises_of_resolve {schema : Schema} {config : IdentityConfig} {type : String}
    (failed : resolve schema config type = .error fault) :
    Stage.buildSpec.Raises fault := by
  unfold resolve at failed
  split at failed
  · cases failed
    exact .identity ..
  split at failed
  · cases failed
  split at failed
  · exact raises_of_resolveBy failed
  split at failed
  · cases failed
  · cases failed
    exact .identity ..

namespace Pipeline

variable {schema : Schema} {config : IdentityConfig} {document : Document}

/-- The field that was found is there to be edited. -/
theorem exists_promoteField_eq {field : PaginatedField} (config : IdentityConfig)
    (mode : PagingMode) (promotion : Promotion)
    (isFound : PaginatedField.find schema document = .ok (some field)) :
    ∃ promoted, promoteField schema config field mode promotion document = .ok promoted := by
  obtain ⟨definition, found, primary, only, _, read⟩ :=
    PaginatedField.find_eq_ok_some_iff.mp isFound
  obtain ⟨others, parts⟩ := List.head?_eq_some_iff.mp primary
  obtain ⟨target, _⟩ := PaginatedField.fieldAt?_of_single only
  rw [← Passage.field_indices read] at target
  obtain ⟨selections, edited, _⟩ := exists_replacedAt
    (pagingEdit schema config field mode promotion.arguments) target
  exact ⟨_, (promoteField_eq_ok_iff parts).mpr ⟨selections, edited, rfl⟩⟩

theorem raises_of_identityOf
    (failed : identityOf schema config document = .error fault) :
    Stage.buildSpec.Raises fault := by
  unfold identityOf at failed
  split at failed
  · next fragment _ =>
      cases resolved : Identity.resolve schema config fragment.condition with
      | ok identity =>
          rw [resolved] at failed
          cases failed
      | error fault =>
          rw [resolved] at failed
          cases failed
          exact Identity.raises_of_resolve resolved
  · cases failed

/-- A diagnostic of the first phase has a fault of its stage, since the field that was found is
never lost. -/
theorem raises_of_process {diagnostic : Diagnostic}
    (failed : process schema config document = .error diagnostic) :
    diagnostic.stage.Raises diagnostic.fault := by
  obtain ⟨span, stage, fault, fails, rfl⟩ := failsAt_of_process failed
  cases fails with
  | finding failed => exact PaginatedField.raises_of_find failed
  | reading failed => exact Document.raises_of_variableSet failed
  | detecting failed => exact PagingMode.raises_of_detect failed
  | promoting failed => exact Promotion.raises_of_promote failed
  | @editing field mode promotion fault isFound failed =>
      obtain ⟨promoted, stays⟩ := exists_promoteField_eq config mode promotion isFound
      rw [stays] at failed
      cases failed
  | identifying failed => exact raises_of_identityOf failed

end Pipeline

end QueryPaging
