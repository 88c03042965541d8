import QueryPaging.Proofs.Faulting
import QueryPaging.Proofs.Growth
import QueryPaging.Proofs.Sufficiency

/-!
# What the first phase leaves alone

A document that is made to page declares more variables, passes other arguments to its field and
selects more fields below it. Everything else in it stays, and stays in place.

- `Definition.Declares`: how a definition comes to declare variables.
- `Frame`: all that changes in a document.
- `Pipeline.exists_frame_of_process`: nothing else does.
-/

namespace QueryPaging

/-! ## Declarations -/

/-- That a definition came to declare a set of variables: an operation gained declarations at the
end, and of a fragment the first `@arguments` was replaced, or one was added at the end. -/
inductive Definition.Declares (set : VariableSet) : Definition → Definition → Prop where
  | operation (body : Operation) (added : List VariableDefinition)
      (fresh : ∀ variableAdded ∈ added, variableAdded.name ∉ body.declarations.map (·.name)) :
      Declares set (.operation body)
        (.operation { body with declarations := body.declarations ++ added })
  | replaced (body : Fragment) (before after : List Directive) (mark : Directive)
      (whole : body.directives = before ++ mark :: after)
      (isMark : mark.name = PassDirective.argumentsName)
      (isFirst : ∀ directive ∈ before, directive.name ≠ PassDirective.argumentsName) :
      Declares set (.fragment body)
        (.fragment { body with
          directives := before ++ PassDirective.encodeArguments set.parameters :: after })
  | added (body : Fragment)
      (unmarked : ∀ directive ∈ body.directives, directive.name ≠ PassDirective.argumentsName) :
      Declares set (.fragment body)
        (.fragment { body with
          directives := body.directives ++ [PassDirective.encodeArguments set.parameters] })

namespace Document

variable {set : VariableSet}

/-- Among directives there is no `@arguments`, or a first one. -/
theorem unmarked_or_exists_first (directives : List Directive) :
    (∀ directive ∈ directives, directive.name ≠ PassDirective.argumentsName) ∨
      ∃ before mark after, directives = before ++ mark :: after ∧
        mark.name = PassDirective.argumentsName ∧
        ∀ directive ∈ before, directive.name ≠ PassDirective.argumentsName := by
  cases marked : directives.find? (·.name = PassDirective.argumentsName) with
  | none =>
      left
      simpa [List.find?_eq_none] using marked
  | some mark =>
      right
      obtain ⟨found, before, after, whole, earlier⟩ := List.find?_eq_some_iff_append.mp marked
      have isMark : mark.name = PassDirective.argumentsName := by simpa using found
      have isFirst : ∀ directive ∈ before, directive.name ≠ PassDirective.argumentsName := by
        simpa using earlier
      exact ⟨before, mark, after, whole, isMark, isFirst⟩

theorem declareParameters_of_unmarked {directives : List Directive}
    (unmarked : ∀ directive ∈ directives, directive.name ≠ PassDirective.argumentsName) :
    declareParameters set directives =
      directives ++ if set.isEmpty then [] else [PassDirective.encodeArguments set.parameters] := by
  induction directives with
  | nil => rw [declareParameters, List.nil_append]
  | cons first others inductionHypothesis =>
      rw [declareParameters, if_neg (unmarked first List.mem_cons_self), inductionHypothesis,
        List.cons_append]
      exact fun directive member => unmarked directive (List.mem_cons_of_mem first member)

theorem declareParameters_append_cons {before after : List Directive} {mark : Directive}
    (isMark : mark.name = PassDirective.argumentsName)
    (isFirst : ∀ directive ∈ before, directive.name ≠ PassDirective.argumentsName) :
    declareParameters set (before ++ mark :: after) =
      before ++ PassDirective.encodeArguments set.parameters :: after := by
  induction before with
  | nil => rw [List.nil_append, declareParameters, if_pos isMark, List.nil_append]
  | cons first others inductionHypothesis =>
      rw [List.cons_append, declareParameters, if_neg (isFirst first List.mem_cons_self),
        inductionHypothesis, List.cons_append]
      exact fun directive member => isFirst directive (List.mem_cons_of_mem first member)

theorem declares_declareIn
    (occupied : set.isEmpty = false)
    (definition : Definition) :
    definition.Declares set (declareIn set definition) := by
  cases definition with
  | operation body =>
      apply Definition.Declares.operation
      intro variableAdded member declared
      obtain ⟨binding, among, rfl⟩ := List.mem_map.mp member
      obtain ⟨declaration, present, sameName⟩ := List.mem_map.mp declared
      have lacking := (List.mem_filter.mp among).2
      rw [Bool.not_eq_true', List.any_eq_false] at lacking
      exact lacking declaration present (beq_iff_eq.mpr sameName)
  | fragment body =>
      rw [declareIn]
      rcases unmarked_or_exists_first body.directives with
        unmarked | ⟨before, mark, after, whole, isMark, isFirst⟩
      · rw [declareParameters_of_unmarked unmarked, occupied]
        exact .added body unmarked
      · rw [whole, declareParameters_append_cons isMark isFirst]
        exact .replaced body before after mark whole isMark isFirst

end Document

theorem Promotion.isEmpty_promote {schema : Schema} {field : PaginatedField} {mode : PagingMode}
    {existing : VariableSet} {promotion : Promotion}
    (result : promote schema field mode existing = .ok promotion) :
    promotion.variableSet.isEmpty = false := by
  obtain ⟨merged, _, _⟩ := promote_eq_ok_iff.mp result
  have asked : (requests schema field mode).map (·.name) ≠ [] := by
    rw [requests]
    cases mode <;> simp [PagingMode.arguments]
  obtain ⟨name, wanted⟩ := List.exists_mem_of_ne_nil _ asked
  have bound := (VariableSet.merge_extends merged).mem_names_iff.mpr (Or.inr wanted)
  cases none : promotion.variableSet.isEmpty with
  | false => rfl
  | true =>
      rw [VariableSet.isEmpty, List.isEmpty_iff] at none
      rw [VariableSet.names, none] at bound
      cases bound

/-! ## The frame of a passage -/

/-- All that changes in a document that is made to page. -/
structure Frame (schema : Schema) (config : IdentityConfig) (document : Document)
    (processed : Processed) where
  definition : Definition
  others : List Definition
  field : PaginatedField
  existing : VariableSet
  mode : PagingMode
  promotion : Promotion
  target : Field
  growth : Augmentation.Growth
  declaring : Definition
  selections : List Selection
  parts : document.definitions = definition :: others
  isFound : PaginatedField.find schema document = .ok (some field)
  isRead : document.variableSet = .ok existing
  isDetected : PagingMode.detect schema field = .ok mode
  isPromoted : Promotion.promote schema field mode existing = .ok promotion
  /-- The marked field is addressed as it was found, also once variables are declared. -/
  stands : document.field? field.indices = some target
  stays : (document.declare promotion.variableSet).field? field.indices = some target
  isMarked : (PassDirective.findPaginate? target.directives).isSome
  declares : definition.Declares promotion.variableSet declaring
  replaces : ReplacedAt target
    { target with
      arguments := promotion.arguments
      selections := growth.apply target.selections }
    field.indices definition.selections selections
  whole : processed.document = { document with
    definitions := declaring.withSelections selections :: others
    refetch := processed.document.refetch }
  hasRefetch : processed.document.refetch.isSome
  authored : processed.authored = document

namespace Pipeline

variable {schema : Schema} {config : IdentityConfig} {document : Document}

theorem exists_frame (passage : Passage schema config document) :
    Nonempty (Frame schema config document ⟨document, passage.outcome, passage.identity⟩) := by
  obtain ⟨rewriting⟩ := passage.exists_rewriting
  obtain ⟨target, marked⟩ := rewriting.target
  rw [← Passage.field_indices rewriting.read] at target
  have selected := Document.selections_declareIn passage.promotion.variableSet rewriting.definition
  have declared : document.declare passage.promotion.variableSet = { document with
      definitions := Document.declareIn passage.promotion.variableSet rewriting.definition
        :: rewriting.others } := by
    rw [Document.declare, Document.mapPrimary, rewriting.parts]
  obtain ⟨growth, grown⟩ := exists_augmentSelections_eq schema config passage.field.parentType
    passage.mode rewriting.found.field.name rewriting.found.field.selections
  obtain ⟨selections, edited, replaced⟩ := exists_replacedAt
    (pagingEdit schema config passage.field passage.mode passage.promotion.arguments) target
  -- The selections are edited once, and this is the edit of the passage.
  have same : selections = rewriting.selections := by
    have again := rewriting.edited
    rw [← Passage.field_indices rewriting.read, edited] at again
    exact Option.some.inj again
  rw [pagingEdit_eq, grown, same] at replaced
  exact ⟨{
    definition := rewriting.definition
    others := rewriting.others
    field := passage.field
    existing := passage.existing
    mode := passage.mode
    promotion := passage.promotion
    target := rewriting.found.field
    growth
    declaring := Document.declareIn passage.promotion.variableSet rewriting.definition
    selections := rewriting.selections
    parts := rewriting.parts
    isFound := passage.isFound
    isRead := passage.isRead
    isDetected := passage.isDetected
    isPromoted := passage.isPromoted
    stands := by
      simp only [Document.field?, Document.selections?, Document.primary?, rewriting.parts]
      exact target
    stays := by
      simp only [Document.field?, Document.selections?, Document.primary?, declared,
        List.head?_cons, Option.map_some, selected]
      exact target
    isMarked := by rw [marked]; rfl
    declares := Document.declares_declareIn (Promotion.isEmpty_promote passage.isPromoted) _
    replaces := replaced
    whole := by
      simp only [Passage.outcome, rewriting.whole]
      rfl
    hasRefetch := rfl
    authored := rfl }⟩

/-- A processed document differs from the authored one within its frame alone, and none is left
alone because its field moved. -/
theorem exists_frame_of_process (schema : Schema) (config : IdentityConfig) (document : Document) :
    (∀ processed, process schema config document = .ok (some processed) →
        Nonempty (Frame schema config document processed)) ∧
      ∀ diagnostic, process schema config document = .error diagnostic →
        ∀ subject, diagnostic.fault ≠ .unsupportedShape subject .movedField := by
  constructor
  · intro processed result
    obtain ⟨passage, rfl⟩ := process_eq_ok_some_iff.mp result
    exact exists_frame passage
  · intro diagnostic failed subject moved
    have raises := raises_of_process failed
    rw [moved] at raises
    generalize diagnostic.stage = stage at raises
    cases raises

/-- The page fragment is made to page within its frame. -/
theorem exists_frame_of_process_paged :
    process Sample.schema .standard (Document.ofDefinition "sample.graphql" Sample.pageFragment) =
        .ok (some Sample.paged) ∧
      Nonempty (Frame Sample.schema .standard
        (Document.ofDefinition "sample.graphql" Sample.pageFragment) Sample.paged) := by
  have result : process Sample.schema .standard
      (Document.ofDefinition "sample.graphql" Sample.pageFragment) = .ok (some Sample.paged) := rfl
  exact ⟨result, (exists_frame_of_process Sample.schema .standard _).1 Sample.paged result⟩

end Pipeline

end QueryPaging
