import QueryPaging.Proofs.CanonicalTexts
import QueryPaging.Proofs.Locating
import QueryPaging.Proofs.ParameterCodec
import QueryPaging.Proofs.Sources
import QueryPaging.Proofs.Uniqueness

/-!
# The names of wrappers

Where all defaults in a document are written, all defaults of its variables are, and they still are
after promotion: a literal that becomes a default was passed to the marked field, and the page size
was given in the mark. So what canonical texts tell of written defaults they tell of whatever a run
makes from source texts, and two wrappers have one name just where they wrap the same fragment with
the same parameters.

- `Document.isWritten_of_variableSetOf`: the variables that a definition declares.
- `Passage.isWritten_promoted`: the variables after promotion.
- `Pipeline.wrapper?_eq_iff_of_mem_generated`: the wrappers of two queries, from whatever runs.
-/

namespace QueryPaging

/-! ## Sets of variables -/

namespace VariableSet

variable {set : VariableSet}

theorem isWritten_empty :
    empty.IsWritten :=
  List.forall_mem_nil _

theorem isWritten_ofBindings {bindings : List VariableBinding}
    (written : ∀ binding ∈ bindings, ∀ value ∈ binding.default, value.isWritten = true) :
    (ofBindings bindings).IsWritten :=
  fun binding member => written binding (mem_of_mem_ofBindings member)

/-- Merging brings in no other defaults than those asked for. -/
theorem IsWritten.merge {merged : VariableSet} {requests : List VariableRequest}
    (written : set.IsWritten)
    (asked : ∀ request ∈ requests, ∀ value ∈ request.default, value.isWritten = true)
    (result : set.merge requests = .ok merged) :
    merged.IsWritten := by
  obtain ⟨added, extended, fromRequests⟩ := (merge_extends result).bindings
  intro binding member
  rw [extended] at member
  rcases List.mem_append.mp member with before | new
  · exact written binding before
  · obtain ⟨request, among, rfl⟩ := fromRequests binding new
    exact asked request among

theorem IsWritten.asDeclared
    (written : set.IsWritten) :
    set.asDeclared.IsWritten := by
  intro binding member
  obtain ⟨source, among, rfl⟩ := List.mem_map.mp member
  exact written source among

end VariableSet

/-! ## Declarations -/

/-- The default of a parameter is one of the values in its argument. -/
theorem PassDirective.isWritten_of_parameterOf {argument : Argument}
    {parameter : FragmentParameter}
    (written : argument.IsWritten)
    (read : parameterOf argument = .ok parameter) :
    ∀ value ∈ parameter.default, value.isWritten = true := by
  cases parameterOf_eq_ok_iff.mp read with
  | object name entries type allowed isType =>
      intro value isLast
      obtain ⟨⟨key, given⟩, among, isDefault⟩ :=
        List.mem_filterMap.mp (List.mem_of_getLast? isLast)
      obtain ⟨-, rfl⟩ := defaultOf?_eq_some_iff.mp isDefault
      exact Reader.areEntriesWritten_iff.mp written (key, given) among

theorem PassDirective.isWritten_of_decode {directive : Directive}
    {parameters : List FragmentParameter}
    (written : directive.IsWritten)
    (decoded : decode directive = .ok (some (.arguments parameters))) :
    ∀ parameter ∈ parameters, ∀ value ∈ parameter.default, value.isWritten = true := by
  intro parameter member
  obtain ⟨argument, among, read⟩ :=
    Pipeline.exists_of_mem_mapM (mapM_parameterOf_of_decode decoded) member
  exact isWritten_of_parameterOf (written argument among) read

namespace Document

theorem isWritten_of_variableSetOf {definition : Definition} {set : VariableSet}
    (written : definition.IsWritten)
    (read : variableSetOf definition = .ok set) :
    set.IsWritten := by
  cases written with
  | operation declarations directives selections =>
      cases read
      refine VariableSet.isWritten_ofBindings fun binding member => ?_
      obtain ⟨declared, among, rfl⟩ := List.mem_map.mp member
      exact declarations declared among
  | fragment directives selections =>
      rcases eq_empty_or_of_ofFragment read with rfl | ⟨directive, parameters, found, decoded, rfl⟩
      · exact VariableSet.isWritten_empty
      · refine VariableSet.isWritten_ofBindings fun binding member => ?_
        obtain ⟨parameter, among, rfl⟩ := List.mem_map.mp member
        have stands := List.mem_of_find?_eq_some found
        exact PassDirective.isWritten_of_decode (directives directive stands) decoded parameter
          among

end Document

/-! ## Promotion -/

/-- A default that promotion asks for was passed to the field, or it is the page size. -/
theorem Promotion.isWritten_requestFor {definition : Option FieldDefinition}
    {field : PaginatedField} {mode : PagingMode} {argument : PagingArgument}
    (passed : ∀ argument ∈ field.arguments, argument.IsWritten)
    (sized : ∀ value ∈ field.pageSize, value.isWritten = true) :
    ∀ value ∈ (requestFor definition field mode argument).default, value.isWritten = true := by
  intro value isDefault
  unfold requestFor at isDefault
  -- A variable that is passed asks for no default, a literal is one, and nothing gets the fallback.
  split at isDefault
  · cases isDefault
  · next given _ supplied =>
      obtain rfl := Option.some.inj isDefault
      obtain ⟨written, found, rfl⟩ := Option.map_eq_some_iff.mp supplied
      exact passed written (List.mem_of_find?_eq_some found)
  · change value ∈ fallback field mode argument at isDefault
    unfold fallback at isDefault
    split at isDefault
    · exact sized value isDefault
    · cases isDefault

theorem PaginatedField.isWritten_pageSize {mark : Directive} {pageSize : Option Value}
    (written : mark.IsWritten)
    (isMark : mark.name = PassDirective.paginateName)
    (read : pageSizeOf mark = .ok pageSize) :
    ∀ value ∈ pageSize, value.isWritten = true := by
  rw [PassDirective.pageSizeOf_eq isMark] at read
  split at read
  · cases read
  · cases read
    intro value isSize
    obtain ⟨argument, isLast, rfl⟩ := Option.map_eq_some_iff.mp isSize
    exact written argument (List.mem_of_getLast? isLast)

namespace Passage

variable {schema : Schema} {config : IdentityConfig} {document : Document}

/-- After promotion the variables of a written document have written defaults. -/
theorem isWritten_promoted (passage : Passage schema config document)
    (written : document.IsWritten) :
    passage.promotion.variableSet.IsWritten := by
  obtain ⟨rewriting⟩ := passage.exists_rewriting
  have definitionWritten : rewriting.definition.IsWritten :=
    written _ (by rw [rewriting.parts]; exact List.mem_cons_self)
  obtain ⟨target, marked⟩ := rewriting.target
  obtain ⟨pageSize, parentType, sized, -, whole⟩ :=
    PaginatedField.ofMarked_eq_ok_iff.mp rewriting.read
  obtain ⟨merged, -, -⟩ := Promotion.promote_eq_ok_iff.mp passage.isPromoted
  cases isWritten_of_fieldAt? definitionWritten.selections target with
  | field arguments directives selections =>
      have existing := Document.isWritten_of_variableSetOf definitionWritten rewriting.declared
      refine existing.merge ?_ merged
      intro request member
      obtain ⟨argument, -, rfl⟩ := List.mem_map.mp member
      refine Promotion.isWritten_requestFor ?_ ?_
      · rw [whole]
        exact arguments
      · rw [whole]
        have isMark := PassDirective.name_of_findPaginate? marked
        have stands := List.mem_of_find?_eq_some marked
        exact PaginatedField.isWritten_pageSize (directives _ stands) isMark sized

/-- The parameters of a query that is generated from a written document have written defaults. -/
theorem isWritten_parameters (passage : Passage schema config document) {identity : Identity}
    {index : FragmentIndex} (generation : Generation passage.outcome identity index)
    (written : document.IsWritten) :
    generation.parameters.IsWritten := by
  obtain ⟨rewriting⟩ := passage.exists_rewriting
  have same := rewriting.variableSet_outcome.symm.trans generation.isRead
  rw [← Except.ok.inj same]
  exact (passage.isWritten_promoted written).asDeclared

end Passage

/-! ## Wrappers -/

namespace Document

/-- The parameters that the wrapper in a generated query declares. It stands behind the
operation. -/
def wrapperParameters? (query : Document) : Option VariableSet := do
  let body ← (← query.definitions[1]?).fragment?
  (VariableSet.ofFragment body).toOption

/-- How the wrapper of a generated query is named: after the fragment that the query was generated
for, and after the parameters that the wrapper itself declares. -/
structure Wraps (query : Document) (fragment : Name) (set : VariableSet) : Prop where
  origin : query.origin? = some fragment.text
  declared : query.wrapperParameters? = some set
  written : set.IsWritten
  wrapper : query.wrapper? = some (wrapperName fragment set.canonicalText)

/-- Wrappers have one name just where they wrap the same fragment with the same parameters. -/
theorem Wraps.wrapper?_eq_iff {left right : Document} {fragment other : Name}
    {set others : VariableSet}
    (wraps : left.Wraps fragment set)
    (otherWraps : right.Wraps other others)
    (digests : DigestsTellApart set.canonicalText others.canonicalText) :
    left.wrapper? = right.wrapper? ↔
      left.origin? = right.origin? ∧ set.parameters = others.parameters := by
  rw [wraps.wrapper, otherWraps.wrapper, wraps.origin, otherWraps.origin, Option.some.injEq,
    Option.some.injEq, VariableSet.wrapperName_eq_iff_parameters_eq wraps.written
      otherWraps.written digests]
  exact and_congr_left fun _ => ⟨congrArg Name.text, Name.eq_of_text_eq⟩

end Document

/-- The wrapper declares what its fragment does. -/
theorem Generation.wrapperParameters?_outcome {document : Document} {identity : Identity}
    {index : FragmentIndex} (generation : Generation document identity index) :
    generation.outcome.wrapperParameters? = some generation.parameters := by
  obtain ⟨definition, primary, isFragment⟩ := Option.bind_eq_some_iff.mp generation.isFragment
  have read := generation.isRead
  rw [Document.variableSet_eq primary] at read
  cases definition with
  | operation body => cases isFragment
  | fragment body =>
      have same : VariableSet.ofFragment
          { generation.fragment with name := generation.wrapper } = .ok generation.parameters := by
        rw [← Option.some.inj isFragment]
        exact read
      exact congrArg Except.toOption same

namespace Pipeline

variable {schema : Schema} {config : IdentityConfig} {workers : Nat} {batch : List Document}
  {report : Report}

theorem exists_wraps_of_mem_generated {query : Document}
    (sourced : ∀ document ∈ authored batch, document.IsSourced)
    (result : run schema config workers batch = .ok report)
    (member : query ∈ report.generated) :
    ∃ fragment set, query.Wraps fragment set := by
  rw [eq_reportOf_of_run result] at member
  obtain ⟨document, among, passage, identity, generation, -, rfl⟩ :=
    exists_generation_of_mem (fun _ => isGenerated_of_mem_authored) member
  refine ⟨generation.fragment.name, generation.parameters, ?_⟩
  constructor
  case origin => rfl
  case declared => exact generation.wrapperParameters?_outcome
  case written => exact passage.isWritten_parameters generation (sourced document among).isWritten
  case wrapper => exact congrArg some (Name.require_eq_ok_iff.mp generation.isWrapper)

/-- Two queries that are generated from source texts, be it in different runs, have wrappers of one
name just where they come from fragments of one name and the wrappers declare the same
parameters. -/
theorem wrapper?_eq_iff_of_mem_generated {otherSchema : Schema} {otherConfig : IdentityConfig}
    {otherWorkers : Nat} {otherBatch : List Document} {otherReport : Report}
    {left right : Document}
    (sourced : ∀ document ∈ authored batch, document.IsSourced)
    (otherSourced : ∀ document ∈ authored otherBatch, document.IsSourced)
    (result : run schema config workers batch = .ok report)
    (otherResult : run otherSchema otherConfig otherWorkers otherBatch = .ok otherReport)
    (isLeft : left ∈ report.generated)
    (isRight : right ∈ otherReport.generated) :
    ∃ set others, left.wrapperParameters? = some set ∧ right.wrapperParameters? = some others ∧
      (DigestsTellApart set.canonicalText others.canonicalText →
        (left.wrapper? = right.wrapper? ↔
          left.origin? = right.origin? ∧ set.parameters = others.parameters)) := by
  obtain ⟨fragment, set, wraps⟩ := exists_wraps_of_mem_generated sourced result isLeft
  obtain ⟨other, others, otherWraps⟩ :=
    exists_wraps_of_mem_generated otherSourced otherResult isRight
  exact ⟨set, others, wraps.declared, otherWraps.declared, wraps.wrapper?_eq_iff otherWraps⟩

end Pipeline

end QueryPaging
