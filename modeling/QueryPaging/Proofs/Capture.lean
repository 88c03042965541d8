import QueryPaging.Proofs.Fitting
import QueryPaging.Proofs.Scoping

/-!
# Variables that are declared anew

Promotion declares the variables that it binds and the document does not declare. A fragment may use
a variable that it leaves to the operation to declare; where promotion declares a variable of that
name, the use refers to the new declaration.

- `Definition.elsewhere`: what a definition refers to besides the paging arguments of its field.
- `Pipeline.minting_of_process`: what is declared anew, and when none of it occurs elsewhere.
- `Pipeline.not_forall_capturesNone`: promotion does not see to it.
-/

namespace QueryPaging

/-! ## Occurrences elsewhere -/

def Argument.passesPaging (argument : Argument) : Bool :=
  match argument.value with
  | .reference _ => PagingArgument.areNamed PagingArgument.all argument.name
  | _ => false

/-- The field without the variables that it passes for paging arguments. -/
def Field.withoutPaging (field : Field) : Field :=
  { field with arguments := field.arguments.filter fun argument => !argument.passesPaging }

/-- The variables that occur in a definition other than as paging arguments of its paginated
field. -/
def Definition.elsewhere (definition : Definition) (field : PaginatedField) : List Name :=
  match editFieldAt? Field.withoutPaging definition.selections field.indices with
  | some selections => (definition.withSelections selections).references
  | none => definition.references

/-- That none of the variables added to a set is among the names used. -/
def VariableSet.CapturesNone (existing declared : VariableSet) (used : List Name) : Prop :=
  ∀ binding ∈ declared.addedSince existing, binding.name ∉ used

theorem Argument.passesPaging_eq_true_iff {argument : Argument} :
    argument.passesPaging = true ↔
      ∃ (paging : PagingArgument) (name : Name), argument = ⟨paging.name, .reference name⟩ := by
  obtain ⟨called, value⟩ := argument
  unfold passesPaging
  split
  · next name isReference =>
      simp only at isReference
      rw [PagingArgument.areNamed, List.any_eq_true]
      constructor
      · rintro ⟨paging, _, same⟩
        exact ⟨paging, name, by rw [beq_iff_eq.mp same, isReference]⟩
      · rintro ⟨paging, _, same⟩
        cases same
        exact ⟨paging, by cases paging <;> decide, beq_self_eq_true _⟩
  · next other =>
      constructor
      · intro passes
        cases passes
      · rintro ⟨_, name, same⟩
        cases same
        exact absurd rfl (other name)

theorem references_withoutPaging_subset (field : Field) :
    (Selection.field (Field.withoutPaging field)).references ⊆ (Selection.field field).references := by
  intro name occurs
  rw [references_field, List.mem_append, List.mem_append] at occurs ⊢
  rcases occurs with (argument | directive) | inside
  · obtain ⟨written, among, mentioned⟩ := List.mem_flatMap.mp argument
    exact Or.inl (Or.inl (List.mem_flatMap.mpr ⟨written, (List.mem_filter.mp among).1, mentioned⟩))
  · exact Or.inl (Or.inr directive)
  · exact Or.inr inside

theorem mem_references_withoutPaging {field : Field} {name : Name}
    (occurs : name ∈ (Selection.field field).references) :
    name ∈ (Selection.field (Field.withoutPaging field)).references ∨
      ∃ paging : PagingArgument, ⟨paging.name, .reference name⟩ ∈ field.arguments := by
  rw [references_field, List.mem_append, List.mem_append] at occurs ⊢
  rcases occurs with (argument | directive) | inside
  · obtain ⟨written, among, mentioned⟩ := List.mem_flatMap.mp argument
    by_cases passes : written.passesPaging = true
    · obtain ⟨paging, passed, rfl⟩ := Argument.passesPaging_eq_true_iff.mp passes
      have same : name = passed := by
        simpa [Argument.references, Value.references] using mentioned
      exact Or.inr ⟨paging, same ▸ among⟩
    · refine Or.inl (Or.inl (Or.inl (List.mem_flatMap.mpr ⟨written, ?_, mentioned⟩)))
      exact List.mem_filter.mpr ⟨among, by rw [Bool.eq_false_iff.mpr passes]; rfl⟩
  · exact Or.inl (Or.inl (Or.inr directive))
  · exact Or.inl (Or.inr inside)

theorem mem_referencesOf_append_cons {before after : List Selection} {selection : Selection}
    {name : Name} :
    name ∈ referencesOf (before ++ selection :: after) ↔
      name ∈ selection.references ∨ name ∈ referencesOf (before ++ after) := by
  simp only [mem_referencesOf_iff, List.mem_append, List.mem_cons]
  constructor
  · rintro ⟨inside, ahead | rfl | behind, mentioned⟩
    · exact Or.inr ⟨inside, Or.inl ahead, mentioned⟩
    · exact Or.inl mentioned
    · exact Or.inr ⟨inside, Or.inr behind, mentioned⟩
  · rintro (mentioned | ⟨inside, ahead | behind, mentioned⟩)
    · exact ⟨selection, Or.inr (Or.inl rfl), mentioned⟩
    · exact ⟨inside, Or.inl ahead, mentioned⟩
    · exact ⟨inside, Or.inr (Or.inr behind), mentioned⟩

/-- What was referred to before a field was replaced is referred to afterwards, or it was referred
to in the field. -/
theorem ReplacedAt.mem_references {old new : Field} {steps : List Nat}
    {whole changed : List Selection} {name : Name}
    (replaced : ReplacedAt old new steps whole changed)
    (occurs : name ∈ referencesOf whole) :
    name ∈ referencesOf changed ∨ name ∈ (Selection.field old).references := by
  induction replaced with
  | here before after =>
      rw [mem_referencesOf_append_cons] at occurs ⊢
      rcases occurs with inField | around
      · exact Or.inr inField
      · exact Or.inl (Or.inr around)
  | @within before after selection inner steps inside inductionHypothesis =>
      rw [mem_referencesOf_append_cons] at occurs ⊢
      rcases occurs with inSelection | around
      · cases selection with
        | field field =>
            rw [references_field, List.mem_append] at inSelection
            rw [Selection.withChildren, references_field, List.mem_append]
            rcases inSelection with own | below
            · exact Or.inl (Or.inl (Or.inl own))
            · exact (inductionHypothesis below).imp_left (Or.inl ∘ Or.inr)
        | spread spread => exact Or.inl (Or.inl inSelection)
        | inline inline =>
            rw [references_inline, List.mem_append] at inSelection
            rw [Selection.withChildren, references_inline, List.mem_append]
            rcases inSelection with own | below
            · exact Or.inl (Or.inl (Or.inl own))
            · exact (inductionHypothesis below).imp_left (Or.inl ∘ Or.inr)
      · exact Or.inl (Or.inr around)

section Elsewhere

variable {definition : Definition} {field : PaginatedField} {target : Field} {name : Name}

theorem mem_references_of_replacedAt {new : Field} {steps : List Nat} {selections : List Selection}
    (replaced : ReplacedAt target new steps definition.selections selections)
    (occurs : name ∈ definition.references) :
    name ∈ (definition.withSelections selections).references ∨
      name ∈ (Selection.field target).references := by
  cases definition with
  | operation body =>
      rcases List.mem_append.mp occurs with own | below
      · exact Or.inl (List.mem_append_left _ own)
      · exact (replaced.mem_references below).imp_left (List.mem_append_right _)
  | fragment body =>
      rcases List.mem_append.mp occurs with own | below
      · exact Or.inl (List.mem_append_left _ own)
      · exact (replaced.mem_references below).imp_left (List.mem_append_right _)

/-- A variable of a definition occurs elsewhere, or it is passed for a paging argument. -/
theorem Definition.mem_references_iff
    (stands : fieldAt? definition.selections field.indices = some target)
    (same : field.arguments = target.arguments) :
    name ∈ definition.references ↔
      name ∈ definition.elsewhere field ∨
        ∃ paging : PagingArgument, ⟨paging.name, .reference name⟩ ∈ field.arguments := by
  obtain ⟨selections, edited, replaced⟩ := exists_replacedAt Field.withoutPaging stands
  have isElsewhere : definition.elsewhere field =
      (definition.withSelections selections).references := by
    rw [elsewhere, edited]
  have inTarget := fieldAt?_subset stands
  rw [isElsewhere, same]
  constructor
  · intro occurs
    rcases mem_references_of_replacedAt replaced occurs with kept | inField
    · exact Or.inl kept
    -- A directive or a child of the field itself may use the variable too.
    rcases mem_references_withoutPaging inField with kept | passed
    · have inEdited := fieldAt?_subset (fieldAt?_of_editFieldAt? stands edited) kept
      rw [← Definition.selections_withSelections definition selections] at inEdited
      exact Or.inl (selections_subset_references _ inEdited)
    · exact Or.inr passed
  · rintro (kept | ⟨paging, passed⟩)
    · rcases Document.mem_references_withSelections kept with before | inEdited
      · exact before
      apply selections_subset_references
      rcases mem_references_editFieldAt? stands edited inEdited with before | inField
      · exact before
      · exact inTarget (references_withoutPaging_subset target inField)
    · apply selections_subset_references
      apply inTarget
      rw [references_field, List.mem_append, List.mem_append]
      refine Or.inl (Or.inl (List.mem_flatMap.mpr ⟨_, passed, ?_⟩))
      simp [Argument.references, Value.references]

end Elsewhere

/-! ## What promotion declares -/

namespace VariableSet

variable {existing declared : VariableSet} {used : List Name}

theorem mem_addedSince_iff {binding : VariableBinding} :
    binding ∈ declared.addedSince existing ↔
      binding ∈ declared.bindings ∧ binding.name ∉ existing.names := by
  rw [addedSince, List.mem_filter, Option.isNone_iff_eq_none, get?_eq_none_iff]

theorem mem_names_addedSince_iff {name : Name} :
    name ∈ (declared.addedSince existing).map (·.name) ↔
      name ∈ declared.names ∧ name ∉ existing.names := by
  constructor
  · intro member
    obtain ⟨binding, added, rfl⟩ := List.mem_map.mp member
    obtain ⟨bound, fresh⟩ := mem_addedSince_iff.mp added
    exact ⟨List.mem_map_of_mem bound, fresh⟩
  · rintro ⟨member, fresh⟩
    obtain ⟨binding, bound, rfl⟩ := List.mem_map.mp member
    exact List.mem_map_of_mem (mem_addedSince_iff.mpr ⟨bound, fresh⟩)

theorem capturesNone_iff_names :
    existing.CapturesNone declared used ↔
      ∀ name ∈ (declared.addedSince existing).map (·.name), name ∉ used := by
  rw [List.forall_mem_map]
  rfl

/-- Nothing is captured just where each use refers to the binding it referred to before. -/
theorem capturesNone_iff_get?
    (kept : ∀ name binding, existing.get? name = some binding → declared.get? name = some binding) :
    existing.CapturesNone declared used ↔
      ∀ name ∈ used, declared.get? name = existing.get? name := by
  rw [capturesNone_iff_names]
  constructor
  · intro fresh name isUsed
    cases before : existing.get? name with
    | some binding => exact kept name binding before
    | none =>
        rw [get?_eq_none_iff] at before ⊢
        intro isDeclared
        exact fresh name (mem_names_addedSince_iff.mpr ⟨isDeclared, before⟩) isUsed
  · intro same name added isUsed
    obtain ⟨isDeclared, fresh⟩ := mem_names_addedSince_iff.mp added
    have unbound := (same name isUsed).trans (get?_eq_none_iff.mpr fresh)
    exact get?_eq_none_iff.mp unbound isDeclared

end VariableSet

/-- What promotion declares anew, and what has to be the case for none of it to occur elsewhere in
the definition. -/
structure Promotion.Minting (definition : Definition) (field : PaginatedField) (mode : PagingMode)
    (existing declared : VariableSet) : Prop where
  occurs : ∀ name, name ∈ definition.references ↔
    name ∈ definition.elsewhere field ∨
      ∃ paging : PagingArgument, ⟨paging.name, .reference name⟩ ∈ field.arguments
  added : ∀ name, name ∈ (declared.addedSince existing).map (·.name) ↔
    name ∉ existing.names ∧ ∃ argument ∈ mode.arguments, boundName field argument = name
  capturesNone_iff : existing.CapturesNone declared (definition.elsewhere field) ↔
    ∀ argument ∈ mode.arguments,
      boundName field argument ∈ existing.names ∨
        boundName field argument ∉ definition.elsewhere field
  /-- Where nothing is captured, each use elsewhere refers to what it referred to before. -/
  capturesNone_iff_same : existing.CapturesNone declared (definition.elsewhere field) ↔
    ∀ name ∈ definition.elsewhere field, declared.get? name = existing.get? name
  capturesNone_of_declared : (∀ name ∈ definition.elsewhere field, name ∈ existing.names) →
    existing.CapturesNone declared (definition.elsewhere field)

namespace Passage

variable {schema : Schema} {config : IdentityConfig} {document : Document}

theorem get?_asDeclared_of_existing {name : Name} {binding : VariableBinding}
    (passage : Passage schema config document)
    (bound : passage.existing.get? name = some binding) :
    passage.promotion.variableSet.asDeclared.get? name = some binding := by
  obtain ⟨rewriting⟩ := passage.exists_rewriting
  obtain ⟨added, extended⟩ := passage.exists_added
  have authored : VariableSet.authoredBinding binding = binding := by
    have isDeclared := Document.origin_eq_declared rewriting.declared
      (List.mem_of_find?_eq_some bound)
    rw [VariableSet.authoredBinding, ← isDeclared]
  rw [VariableSet.get?_asDeclared, VariableSet.get?_of_bindings_append extended bound,
    Option.map_some, authored]

/-- Promotion declares the variables that it binds and the document does not declare. -/
theorem mem_names_addedSince_iff (passage : Passage schema config document) {name : Name} :
    name ∈ (passage.promotion.variableSet.asDeclared.addedSince passage.existing).map (·.name) ↔
      name ∉ passage.existing.names ∧
        ∃ argument ∈ passage.mode.arguments, Promotion.boundName passage.field argument = name := by
  obtain ⟨merged, _, _⟩ := Promotion.promote_eq_ok_iff.mp passage.isPromoted
  have wanted : name ∈ (Promotion.requests schema passage.field passage.mode).map (·.name) ↔
      ∃ argument ∈ passage.mode.arguments,
        Promotion.boundName passage.field argument = name := by
    rw [Promotion.requests, List.map_map, List.mem_map]
    simp only [Function.comp_apply, Promotion.name_requestFor]
  rw [VariableSet.mem_names_addedSince_iff, VariableSet.names_asDeclared,
    (VariableSet.merge_extends merged).mem_names_iff, wanted]
  constructor
  · rintro ⟨before | asked, fresh⟩
    · exact absurd before fresh
    · exact ⟨fresh, asked⟩
  · rintro ⟨fresh, asked⟩
    exact ⟨Or.inr asked, fresh⟩

theorem minting {passage : Passage schema config document} (rewriting : passage.Rewriting) :
    Promotion.Minting rewriting.definition passage.field passage.mode passage.existing
      passage.promotion.variableSet.asDeclared := by
  have capturesNone_iff := @VariableSet.capturesNone_iff_names passage.existing
    passage.promotion.variableSet.asDeclared (rewriting.definition.elsewhere passage.field)
  constructor
  case occurs =>
    intro name
    obtain ⟨_, _, _, _, whole⟩ := PaginatedField.ofMarked_eq_ok_iff.mp rewriting.read
    have stands : fieldAt? rewriting.definition.selections passage.field.indices =
        some rewriting.found.field := by
      rw [whole]
      exact rewriting.target.1
    have same : passage.field.arguments = rewriting.found.field.arguments := by rw [whole]
    exact Definition.mem_references_iff stands same
  case added => exact fun name => passage.mem_names_addedSince_iff
  case capturesNone_iff =>
    rw [capturesNone_iff]
    constructor
    · intro fresh argument asked
      by_cases before : Promotion.boundName passage.field argument ∈ passage.existing.names
      · exact Or.inl before
      · exact Or.inr (fresh _ (passage.mem_names_addedSince_iff.mpr ⟨before, argument, asked, rfl⟩))
    · intro apart name added
      obtain ⟨fresh, argument, asked, rfl⟩ := passage.mem_names_addedSince_iff.mp added
      exact (apart argument asked).resolve_left fresh
  case capturesNone_iff_same =>
    exact VariableSet.capturesNone_iff_get? fun _ _ => passage.get?_asDeclared_of_existing
  case capturesNone_of_declared =>
    intro declares
    rw [capturesNone_iff]
    intro name added used
    exact (passage.mem_names_addedSince_iff.mp added).1 (declares name used)

end Passage

namespace Pipeline

/-- Processing a document captures a variable just where the author uses, without declaring it, a
variable that a paging argument is bound to. -/
theorem minting_of_process {schema : Schema} {config : IdentityConfig} {document : Document}
    {processed : Processed}
    (result : process schema config document = .ok (some processed)) :
    ∃ definition field mode existing declared,
      document.primary? = some definition ∧
      PaginatedField.find schema document = .ok (some field) ∧
      PagingMode.detect schema field = .ok mode ∧
      document.variableSet = .ok existing ∧
      processed.document.variableSet = .ok declared ∧
      Promotion.Minting definition field mode existing declared := by
  obtain ⟨passage, rfl⟩ := process_eq_ok_some_iff.mp result
  obtain ⟨rewriting⟩ := passage.exists_rewriting
  refine ⟨rewriting.definition, passage.field, passage.mode, passage.existing, _, ?_,
    passage.isFound, passage.isDetected, passage.isRead, passage.variableSet_processed,
    Passage.minting rewriting⟩
  rw [Document.primary?, rewriting.parts, List.head?_cons]

end Pipeline

/-! ## A fragment with variables of the operation -/

namespace Sample

/-- A fragment that leaves its page size to the operation, and that of another field as well. -/
def borrowingFragment (other : Name) : Document :=
  Document.ofDefinition "sample.graphql"
    (.fragment ⟨page, queryType, [],
      [itemsField none (.reference size) [mark], itemsField (some rest) (.reference other) []],
      none⟩)

end Sample

namespace Pipeline

/-- Where the other field uses another variable, nothing is captured. -/
theorem minting_of_process_size :
    let document := Sample.borrowingFragment Sample.rest
    ∃ processed, process Sample.schema .standard document = .ok (some processed) ∧
      ∃ definition field mode existing declared,
        document.primary? = some definition ∧
        PaginatedField.find Sample.schema document = .ok (some field) ∧
        PagingMode.detect Sample.schema field = .ok mode ∧
        document.variableSet = .ok existing ∧
        processed.document.variableSet = .ok declared ∧
        Promotion.Minting definition field mode existing declared ∧
        existing.CapturesNone declared (definition.elsewhere field) := by
  intro document
  have result : process Sample.schema .standard document = .ok (some _) := rfl
  obtain ⟨definition, field, mode, existing, declared, primary, isFound, isDetected, isRead, reads,
    minting⟩ := minting_of_process result
  refine ⟨_, result, definition, field, mode, existing, declared, primary, isFound, isDetected,
    isRead, reads, minting, minting.capturesNone_iff.mpr ?_⟩
  cases primary
  cases isFound
  cases isDetected
  exact fun argument _ => Or.inr (by cases argument <;> decide)

/-- Not every document keeps its uses apart: where the fields share a size that the fragment leaves
to the operation, promotion declares it for one of them, and the other gets it too. -/
theorem not_forall_capturesNone :
    ¬ ∀ (schema : Schema) (config : IdentityConfig) (document : Document) (processed : Processed)
      (definition : Definition) (field : PaginatedField) (existing declared : VariableSet),
      process schema config document = .ok (some processed) →
      document.primary? = some definition →
      PaginatedField.find schema document = .ok (some field) →
      document.variableSet = .ok existing →
      processed.document.variableSet = .ok declared →
        existing.CapturesNone declared (definition.elsewhere field) := by
  intro always
  have result : process Sample.schema .standard (Sample.borrowingFragment Sample.size) =
      .ok (some _) := rfl
  obtain ⟨passage, whole⟩ := process_eq_ok_some_iff.mp result
  -- The variables of the processed fragment are known from the passage, not by running the parser
  -- on the text that promotion wrote.
  have isField : passage.field =
      Sample.itemsPassing [⟨PagingArgument.limit.name, .reference Sample.size⟩] :=
    Option.some.inj (Except.ok.inj passage.isFound.symm)
  have isExisting : passage.existing = VariableSet.empty := Except.ok.inj passage.isRead.symm
  have isMode : passage.mode = .offset := by
    have detected := passage.isDetected
    rw [isField] at detected
    exact Except.ok.inj detected.symm
  have apart := always _ _ _ _ _ _ _ _ result rfl passage.isFound passage.isRead
    (by rw [whole]; exact passage.variableSet_processed)
  rw [VariableSet.capturesNone_iff_names] at apart
  apply apart Sample.size
  · rw [passage.mem_names_addedSince_iff, isExisting, isMode, isField]
    exact ⟨by decide, .limit, List.mem_cons_self, rfl⟩
  · rw [isField]
    decide

end Pipeline

end QueryPaging
