import QueryPaging.Proofs.Passage
import QueryPaging.Proofs.References
import QueryPaging.Proofs.Tables

/-!
# Documents that declare what they use

A document whose author declared every variable it uses still does so once it was made to page:
augmentation refers to nothing, promotion declares what it binds, and a default that becomes a
declaration was written in the document before.
-/

namespace QueryPaging

/-! ## Augmentation -/

namespace Augmentation

/-- An edit after which a field refers to nothing new. -/
def AddsNoReference (edit : Field → Field) : Prop :=
  ∀ field, (Selection.field (edit field)).references ⊆ (Selection.field field).references

theorem addsNoReference_id :
    AddsNoReference id :=
  fun _ => List.Subset.refl _

theorem addsNoReference_within {edit : List Selection → List Selection}
    (clean : ∀ selections, referencesOf (edit selections) ⊆ referencesOf selections) :
    AddsNoReference (within edit) := by
  intro field
  rw [references_field, references_field]
  exact List.append_subset.mpr ⟨List.subset_append_left ..,
    List.Subset.trans (clean field.selections) (List.subset_append_right ..)⟩

theorem references_ensure_subset (name : Name) {edit : Field → Field}
    (clean : AddsNoReference edit) (selections : List Selection) :
    referencesOf (ensure name edit selections) ⊆ referencesOf selections := by
  induction selections with
  | nil =>
      rw [ensure, referencesOf_cons, referencesOf_nil, List.append_nil]
      refine List.Subset.trans (clean _) ?_
      rw [references_field]
      simp [FieldOf.plain]
  | cons selection others inductionHypothesis =>
      have behind : selection.references ++ referencesOf (ensure name edit others) ⊆
          selection.references ++ referencesOf others :=
        List.append_subset.mpr ⟨List.subset_append_left ..,
          List.Subset.trans inductionHypothesis (List.subset_append_right ..)⟩
      cases selection with
      | field field =>
          rw [ensure]
          split
          · rw [referencesOf_cons, referencesOf_cons]
            exact List.append_subset.mpr
              ⟨List.Subset.trans (clean field) (List.subset_append_left ..),
                List.subset_append_right ..⟩
          · rw [referencesOf_cons, referencesOf_cons]
            exact behind
      | spread spread =>
          rw [ensure, referencesOf_cons, referencesOf_cons]
          · exact behind
          · intro field same
            cases same
      | inline inline =>
          rw [ensure, referencesOf_cons, referencesOf_cons]
          · exact behind
          · intro field same
            cases same

theorem references_selectAll_subset (names : List Name) (selections : List Selection) :
    referencesOf (selectAll names selections) ⊆ referencesOf selections := by
  induction names generalizing selections with
  | nil => exact List.Subset.refl _
  | cons name names inductionHypothesis =>
      exact List.Subset.trans (inductionHypothesis _)
        (references_ensure_subset name addsNoReference_id selections)

variable (schema : Schema) (config : IdentityConfig)

theorem references_augmentNode_subset (type : Name) (selections : List Selection) :
    referencesOf (augmentNode schema config type selections) ⊆ referencesOf selections :=
  List.Subset.trans (references_ensure_subset _ addsNoReference_id _)
    (references_selectAll_subset ..)

theorem references_augmentEdges_subset (nodeType : Option Name) (selections : List Selection) :
    referencesOf (augmentEdges schema config nodeType selections) ⊆ referencesOf selections := by
  refine List.Subset.trans (references_ensure_subset _ addsNoReference_id _) ?_
  cases nodeType with
  | none => exact List.Subset.refl _
  | some type =>
      exact references_ensure_subset _
        (addsNoReference_within (references_augmentNode_subset schema config type)) selections

theorem references_augmentConnection_subset (shape : ConnectionShape)
    (selections : List Selection) :
    referencesOf (augmentConnection schema config shape selections) ⊆
      referencesOf selections := by
  have edgesSubset := references_ensure_subset edges
    (addsNoReference_within (references_augmentEdges_subset schema config shape.node)) selections
  unfold augmentConnection
  cases shape.pageInfo with
  | none =>
      exact List.Subset.trans (references_ensure_subset _ addsNoReference_id _) edgesSubset
  | some type =>
      refine List.Subset.trans
        (references_ensure_subset _ (addsNoReference_within fun _ => ?_) _) edgesSubset
      exact references_selectAll_subset ..

end Augmentation

theorem references_augmentSelections_subset (schema : Schema) (config : IdentityConfig)
    (parentType : String) (mode : PagingMode) (name : Name) (selections : List Selection) :
    referencesOf (augmentSelections schema config parentType mode name selections) ⊆
      referencesOf selections := by
  unfold augmentSelections
  split
  · exact Augmentation.references_augmentConnection_subset schema config _ selections
  · exact List.Subset.refl _

/-! ## Promotion -/

namespace Promotion

/-- Promoted arguments refer to what was referred to, and to what they are bound to. -/
theorem mem_references_promoteArguments {bindings : Table Name Name} {written : List Argument}
    {name : Name}
    (member : name ∈ (promoteArguments bindings written).flatMap Argument.references) :
    name ∈ written.flatMap Argument.references ∨ ∃ argument, (argument, name) ∈ bindings := by
  obtain ⟨argument, among, inside⟩ := List.mem_flatMap.mp member
  rcases List.mem_append.mp among with kept | missing
  · obtain ⟨source, wasWritten, rfl⟩ := List.mem_map.mp kept
    have before : name ∈ source.references →
        name ∈ written.flatMap Argument.references := fun own =>
      List.mem_flatMap.mpr ⟨source, wasWritten, own⟩
    unfold promoteArgument at inside
    split at inside
    · exact Or.inl (before inside)
    · next bound isBound _ =>
        rw [Argument.references, Value.references, List.mem_singleton] at inside
        exact Or.inr ⟨source.name, by rw [inside]; exact Table.mem_of_get?_eq_some isBound⟩
    · exact Or.inl (before inside)
  · obtain ⟨entry, absent, rfl⟩ := List.mem_map.mp missing
    rw [Argument.references, Value.references, List.mem_singleton] at inside
    exact Or.inr ⟨entry.1, by rw [inside]; exact (List.mem_filter.mp absent).1⟩

variable {schema : Schema} {field : PaginatedField} {mode : PagingMode}
  {existing : VariableSet} {promotion : Promotion}

theorem mem_names_of_mem_bindings {argument name : Name}
    (result : promote schema field mode existing = .ok promotion)
    (bound : (argument, name) ∈ promotion.bindings) :
    name ∈ promotion.variableSet.names := by
  obtain ⟨merged, isTable, _⟩ := promote_eq_ok_iff.mp result
  rw [isTable] at bound
  obtain ⟨request, among, same⟩ := List.mem_map.mp bound
  cases same
  exact (VariableSet.merge_extends merged).mem_names_iff.mpr
    (Or.inr (List.mem_map_of_mem among))

/-- What is referred to in the default of a promoted variable was referred to in an argument, if
the page size refers to nothing. -/
theorem mem_references_default {binding : VariableBinding} {name : Name}
    (result : promote schema field mode existing = .ok promotion)
    (plain : ∀ value, field.pageSize = some value → value.references = [])
    (member : binding ∈ promotion.variableSet.bindings)
    (inside : name ∈ (binding.default.map Value.references).getD []) :
    binding ∈ existing.bindings ∨ name ∈ field.arguments.flatMap Argument.references := by
  obtain ⟨merged, _, _⟩ := promote_eq_ok_iff.mp result
  obtain ⟨added, extended, fromRequests⟩ := (VariableSet.merge_extends merged).bindings
  rw [extended] at member
  refine (List.mem_append.mp member).imp_right fun new => ?_
  obtain ⟨request, among, rfl⟩ := fromRequests binding new
  obtain ⟨argument, _, rfl⟩ := List.mem_map.mp among
  unfold requestFor at inside
  split at inside
  · simp [VariableRequest.binding, VariableRequest.default] at inside
  · next value _ supplied =>
      simp only [VariableRequest.binding, VariableRequest.default, Option.map_some,
        Option.getD_some] at inside
      obtain ⟨written, found, rfl⟩ := Option.map_eq_some_iff.mp supplied
      exact List.mem_flatMap.mpr ⟨written, List.mem_of_find?_eq_some found, inside⟩
  · simp only [VariableRequest.binding, VariableRequest.default, fallback] at inside
    split at inside
    · cases size : field.pageSize with
      | none => simp [size] at inside
      | some value => simp [size, plain value size] at inside
    · simp at inside

end Promotion

/-! ## Declared defaults -/

namespace PassDirective

/-- What every step of a fold keeps, the fold keeps. -/
theorem foldlM_keeps {State Item : Type} {step : State → Item → Except Fault State}
    (property : State → Prop) {items : List Item}
    (kept : ∀ state item next, item ∈ items → property state →
      step state item = .ok next → property next)
    {start result : State}
    (holds : property start)
    (done : items.foldlM step start = .ok result) :
    property result := by
  induction items generalizing start with
  | nil =>
      cases done
      exact holds
  | cons item items inductionHypothesis =>
      rw [List.foldlM_cons] at done
      cases first : step start item with
      | error fault => simp [first, bind, Except.bind] at done
      | ok next =>
          rw [first] at done
          exact inductionHypothesis
            (fun state other after member => kept state other after
              (List.mem_cons_of_mem item member))
            (kept start item next (by simp) holds first) done

theorem entryReferences_subset_of_mem {entries : List (Name × Value)} {entry : Name × Value}
    (member : entry ∈ entries) :
    entry.2.references ⊆ Value.entryReferences entries := by
  induction entries with
  | nil => cases member
  | cons first others inductionHypothesis =>
      obtain ⟨name, value⟩ := first
      rw [Value.entryReferences]
      rcases List.mem_cons.mp member with rfl | later
      · exact List.subset_append_left ..
      · exact List.Subset.trans (inductionHypothesis later) (List.subset_append_right ..)

/-- What the default of a parameter refers to is written where the parameter is. -/
theorem references_default_subset {argument : Argument} {parameter : FragmentParameter}
    (read : parameterOf argument = .ok parameter) :
    (parameter.default.map Value.references).getD [] ⊆ argument.references := by
  unfold parameterOf at read
  split at read
  · next entries isObject =>
      cases drafted : entries.foldlM (draftStep argument.name) ⟨none, none⟩ with
      | error fault => simp [drafted, bind, Except.bind] at read
      | ok draft =>
          have inside : (draft.default.map Value.references).getD [] ⊆
              Value.entryReferences entries := by
            refine foldlM_keeps
              (fun draft => (draft.default.map Value.references).getD [] ⊆
                Value.entryReferences entries) ?_ (List.nil_subset _) drafted
            intro state entry next member before stepped
            unfold draftStep at stepped
            split at stepped
            · cases stepped
              exact entryReferences_subset_of_mem member
            · split at stepped
              · split at stepped
                · split at stepped
                  · cases stepped
                    exact before
                  · cases stepped
                · cases stepped
              · cases stepped
          have sameDefault : parameter.default = draft.default := by
            simp only [drafted, bind, Except.bind] at read
            split at read
            · cases read
              rfl
            · cases read
          rw [sameDefault, Argument.references, isObject, Value.references]
          exact inside
  · cases read

theorem mapM_parameterOf_of_decode {directive : Directive}
    {parameters : List FragmentParameter}
    (decoded : decode directive = .ok (some (.arguments parameters))) :
    directive.arguments.mapM parameterOf = .ok parameters := by
  unfold decode at decoded
  split at decoded
  · cases sized : directive.arguments.foldlM pageSizeStep none <;>
      simp [sized, bind, Except.bind, pure, Except.pure] at decoded
  · split at decoded
    · cases read : directive.arguments.mapM parameterOf with
      | error fault => simp [read, bind, Except.bind] at decoded
      | ok values =>
          simp only [read, bind, Except.bind, pure, Except.pure, Except.ok.injEq,
            Option.some.injEq, PassDirective.arguments.injEq] at decoded
          rw [decoded]
    · split at decoded <;> cases decoded

/-- A page size is a number and refers to nothing. -/
theorem references_pageSize {mark : Directive} {value : Value}
    (sized : PaginatedField.pageSizeOf mark = .ok (some value)) :
    value.references = [] := by
  have numeric : ∀ result : Option Value, mark.arguments.foldlM pageSizeStep none = .ok result →
      ∀ value, result = some value → value.references = [] := by
    intro result folded
    refine foldlM_keeps
      (fun result => ∀ value, result = some value → value.references = []) ?_ (by simp) folded
    intro state argument next _ _ stepped value isNext
    unfold pageSizeStep at stepped
    split at stepped
    · split at stepped
      · next isNumber =>
          cases stepped
          cases isNext
          cases given : argument.value <;> simp [given, Value.int32?] at isNumber
          rfl
      · cases stepped
    · cases stepped
  unfold PaginatedField.pageSizeOf decode at sized
  split at sized
  · cases folded : mark.arguments.foldlM pageSizeStep none with
    | error fault => simp [folded, bind, Except.bind] at sized
    | ok result =>
        simp only [folded, bind, Except.bind, pure, Except.pure, Except.ok.injEq] at sized
        exact numeric result folded value sized
  · split at sized
    · cases read : mark.arguments.mapM parameterOf <;>
        simp [read, bind, Except.bind, pure, Except.pure] at sized
    · split at sized <;> simp [bind, Except.bind, pure, Except.pure] at sized

end PassDirective

namespace Document

/-- What the default of a declared variable refers to is written in the definition. -/
theorem references_default_subset {definition : Definition} {set : VariableSet}
    {binding : VariableBinding}
    (read : variableSetOf definition = .ok set)
    (member : binding ∈ set.bindings) :
    (binding.default.map Value.references).getD [] ⊆ definition.references := by
  cases definition with
  | operation body =>
      cases read
      obtain ⟨declaration, among, rfl⟩ :=
        List.mem_map.mp (VariableSet.mem_of_mem_ofBindings member)
      intro name inside
      refine List.mem_append_left _ (List.mem_append_left _ ?_)
      exact List.mem_flatMap.mpr ⟨declaration, among, List.mem_append_left _ inside⟩
  | fragment body =>
      rcases eq_empty_or_of_ofFragment read with rfl | ⟨directive, parameters, found, decoded, rfl⟩
      · cases member
      · have written := List.mem_of_find?_eq_some found
        obtain ⟨parameter, among, rfl⟩ :=
          List.mem_map.mp (VariableSet.mem_of_mem_ofBindings member)
        obtain ⟨argument, given, isRead⟩ := Pipeline.exists_of_mem_mapM
          (PassDirective.mapM_parameterOf_of_decode decoded) among
        intro name inside
        refine List.mem_append_left _ (List.mem_flatMap.mpr ⟨directive, written, ?_⟩)
        exact List.mem_flatMap.mpr
          ⟨argument, given, PassDirective.references_default_subset isRead inside⟩

/-! ## Rewriting -/

theorem mem_references_encodeArguments {set : VariableSet} {name : Name}
    (member : name ∈ (PassDirective.encodeArguments set.parameters).references) :
    ∃ binding ∈ set.bindings, name ∈ (binding.default.map Value.references).getD [] := by
  obtain ⟨argument, among, inside⟩ := List.mem_flatMap.mp member
  obtain ⟨parameter, given, rfl⟩ := List.mem_map.mp among
  obtain ⟨binding, bound, rfl⟩ := List.mem_map.mp given
  refine ⟨binding, bound, ?_⟩
  obtain ⟨bindingName, type, default, origin⟩ := binding
  cases default with
  | none =>
      simp [Argument.references, PassDirective.encodeParameter, VariableSet.toParameter,
        Value.references, Value.entryReferences] at inside
  | some value =>
      simpa [Argument.references, PassDirective.encodeParameter, VariableSet.toParameter,
        Value.references, Value.entryReferences] using inside

theorem mem_references_declareParameters {set : VariableSet} {directives : List Directive}
    {name : Name}
    (member : name ∈ (declareParameters set directives).flatMap Directive.references) :
    name ∈ directives.flatMap Directive.references ∨
      ∃ binding ∈ set.bindings, name ∈ (binding.default.map Value.references).getD [] := by
  induction directives with
  | nil =>
      rw [declareParameters] at member
      split at member
      · cases member
      · rw [List.flatMap_singleton] at member
        exact Or.inr (mem_references_encodeArguments member)
  | cons first others inductionHypothesis =>
      rw [declareParameters] at member
      rw [List.flatMap_cons]
      split at member
      · rw [List.flatMap_cons, List.mem_append] at member
        rcases member with encoded | later
        · exact Or.inr (mem_references_encodeArguments encoded)
        · exact Or.inl (List.mem_append_right _ later)
      · rw [List.flatMap_cons, List.mem_append] at member
        rcases member with here | later
        · exact Or.inl (List.mem_append_left _ here)
        · exact (inductionHypothesis later).imp_left (List.mem_append_right _)

/-- A definition that declares variables refers to what it did, and to what their defaults refer
to. -/
theorem mem_references_declareIn {set : VariableSet} {definition : Definition} {name : Name}
    (member : name ∈ (declareIn set definition).references) :
    name ∈ definition.references ∨
      ∃ binding ∈ set.bindings, name ∈ (binding.default.map Value.references).getD [] := by
  cases definition with
  | operation body =>
      simp only [declareIn, Definition.references, List.flatMap_append, List.mem_append] at member
      simp only [Definition.references, List.mem_append]
      rcases member with ((before | added) | directive) | inside
      · exact Or.inl (Or.inl (Or.inl before))
      · obtain ⟨declaration, among, mentioned⟩ := List.mem_flatMap.mp added
        obtain ⟨binding, missing, rfl⟩ := List.mem_map.mp among
        refine Or.inr ⟨binding, (List.mem_filter.mp missing).1, ?_⟩
        simpa [VariableDefinition.references, VariableSet.toDefinition] using mentioned
      · exact Or.inl (Or.inl (Or.inr directive))
      · exact Or.inl (Or.inr inside)
  | fragment body =>
      simp only [declareIn, Definition.references, List.mem_append] at member
      simp only [Definition.references, List.mem_append]
      rcases member with directive | inside
      · exact (mem_references_declareParameters directive).imp_left Or.inl
      · exact Or.inl (Or.inr inside)

theorem mem_references_withSelections {definition : Definition} {selections : List Selection}
    {name : Name}
    (member : name ∈ (definition.withSelections selections).references) :
    name ∈ definition.references ∨ name ∈ referencesOf selections := by
  cases definition with
  | operation body =>
      exact (List.mem_append.mp member).imp_left (List.mem_append_left _)
  | fragment body =>
      exact (List.mem_append.mp member).imp_left (List.mem_append_left _)

/-- Whether a document declares every variable that occurs in it. -/
def DeclaresUses (document : Document) : Prop :=
  ∀ definition, document.primary? = some definition → ∀ name ∈ definition.references,
    ∃ set, document.variableSet = .ok set ∧ name ∈ set.names

end Document

/-- What occurs in the edited field occurred in the field, or is passed to one of its arguments. -/
theorem Pipeline.mem_references_pagingEdit {schema : Schema} {config : IdentityConfig}
    {field : PaginatedField} {mode : PagingMode} {arguments : List Argument} {target : Field}
    {name : Name}
    (member : name ∈
      (Selection.field (pagingEdit schema config field mode arguments target)).references) :
    name ∈ arguments.flatMap Argument.references ∨
      name ∈ (Selection.field target).references := by
  rw [pagingEdit_eq, references_field, List.mem_append, List.mem_append] at member
  rw [references_field, List.mem_append, List.mem_append]
  rcases member with (argument | directive) | inside
  · exact Or.inl argument
  · exact Or.inr (Or.inl (Or.inr directive))
  · exact Or.inr (Or.inr (references_augmentSelections_subset _ _ _ _ _ _ inside))

namespace Passage

variable {schema : Schema} {config : IdentityConfig} {document : Document}
  {passage : Passage schema config document}

/-- A document that declares what it uses still does after its passage. -/
theorem mem_names_of_mem_references (rewriting : passage.Rewriting) {name : Name}
    (declares : document.DeclaresUses)
    (member : name ∈ rewriting.changed.references) :
    name ∈ passage.promotion.variableSet.names := by
  have primary : document.primary? = some rewriting.definition := by
    rw [Document.primary?, rewriting.parts]
    rfl
  obtain ⟨merged, _, passed⟩ := Promotion.promote_eq_ok_iff.mp passage.isPromoted
  obtain ⟨pageSize, parentType, sized, _, whole⟩ :=
    PaginatedField.ofMarked_eq_ok_iff.mp rewriting.read
  obtain ⟨target, _⟩ := rewriting.target
  -- What occurred in the document was declared, and still is.
  have wasWritten : name ∈ rewriting.definition.references →
      name ∈ passage.promotion.variableSet.names := by
    intro occurs
    obtain ⟨set, isRead, isDeclared⟩ := declares _ primary name occurs
    rw [passage.isRead] at isRead
    cases isRead
    exact (VariableSet.merge_extends merged).mem_names_iff.mpr (Or.inl isDeclared)
  have inField : name ∈ (Selection.field rewriting.found.field).references →
      name ∈ passage.promotion.variableSet.names := fun occurs =>
    wasWritten (selections_subset_references _ (fieldAt?_subset target occurs))
  have inArguments : name ∈ passage.field.arguments.flatMap Argument.references →
      name ∈ passage.promotion.variableSet.names := by
    intro occurs
    refine inField ?_
    rw [whole] at occurs
    rw [references_field]
    exact List.mem_append_left _ (List.mem_append_left _ occurs)
  have plain : ∀ value, passage.field.pageSize = some value → value.references = [] := by
    intro value isSize
    rw [whole] at isSize
    exact PassDirective.references_pageSize (sized.trans (congrArg Except.ok isSize))
  rcases Document.mem_references_withSelections member with declared | edited
  · rcases Document.mem_references_declareIn declared with before | ⟨binding, bound, inside⟩
    · exact wasWritten before
    · rcases Promotion.mem_references_default passage.isPromoted plain bound inside with
        existed | supplied
      · exact wasWritten (Document.references_default_subset rewriting.declared existed inside)
      · exact inArguments supplied
  · rcases mem_references_editFieldAt? target rewriting.edited edited with before | inside
    · exact wasWritten (selections_subset_references _ before)
    · rcases Pipeline.mem_references_pagingEdit inside with argument | before
      · rw [passed] at argument
        rcases Promotion.mem_references_promoteArguments argument with before | ⟨_, bound⟩
        · exact inArguments before
        · exact Promotion.mem_names_of_mem_bindings passage.isPromoted bound
      · exact inField before

end Passage

end QueryPaging
