import QueryPaging.Proofs.Fitting
import QueryPaging.Proofs.Locating
import QueryPaging.Proofs.Lookups
import QueryPaging.Proofs.Reporting
import QueryPaging.Proofs.Wiring

/-!
# Refetch specs and generated queries

A refetch spec is built in the first phase and tells a runtime what the generated query of the
second phase looks like. Both are built from the same fragment, and they tell the same.

- `LeadsTo`: what a path of response keys leads to.
- `Embedding.Corresponds`: what a refetch spec says of an operation and of its wrapper.
- `Pipeline.corresponds_of_mem_generated`: every generated query of a report corresponds to its
  refetch spec, which is the one of its fragment.
-/

namespace QueryPaging

/-! ## Following response keys -/

/-- That response keys lead to a field along a position, where each key is answered by a field and
inline fragments are looked through. -/
inductive LeadsTo (target : Field) : List Name → List Nat → List Selection → Prop where
  | here {index : Nat} {selections : List Selection}
      (present : selections[index]? = some (.field target)) :
      LeadsTo target [target.responseKey] [index] selections
  | field {index : Nat} {selections : List Selection} {field : Field} {keys : List Name}
      {steps : List Nat}
      (present : selections[index]? = some (.field field))
      (below : LeadsTo target keys steps field.selections) :
      LeadsTo target (field.responseKey :: keys) (index :: steps) selections
  | inline {index : Nat} {selections : List Selection} {inline : InlineFragment}
      {keys : List Name} {steps : List Nat}
      (present : selections[index]? = some (.inline inline))
      (below : LeadsTo target keys steps inline.selections) :
      LeadsTo target keys (index :: steps) selections

/-- The keys along the position of a field lead to it. -/
theorem leadsTo_keysAlong {target : Field} :
    ∀ {steps : List Nat} {selections : List Selection},
      fieldAt? selections steps = some target →
        LeadsTo target (keysAlong selections steps) steps selections
  | [], _, isTarget => by cases isTarget
  | [last], _, isTarget => by
      have present := fieldAt?_single_eq_some_iff.mp isTarget
      rw [keysAlong_field present]
      exact .here present
  | index :: next :: steps, _, isTarget => by
      rw [fieldAt?_step, Option.bind_eq_some_iff] at isTarget
      obtain ⟨selection, present, inside⟩ := isTarget
      cases selection with
      | field body =>
          rw [keysAlong_field present]
          exact .field present (leadsTo_keysAlong inside)
      | inline body =>
          rw [keysAlong_inline present]
          exact .inline present (leadsTo_keysAlong inside)
      | spread body => simp [Selection.children] at inside

/-! ## Where a generated query comes from -/

namespace Pipeline

open Interleaving

section Sources

variable {schema : Schema} {config : IdentityConfig} {entries : List Processed}
  {results : List (Item × Interleaving.Outcome)}

theorem mem_assigned_of_mem {item : Item} {outcome : Interleaving.Outcome}
    (items : results.map (·.1) = embeddable entries)
    (member : (item, outcome) ∈ results) :
    (item.1, some outcome) ∈ assigned entries (results.map (·.2)) := by
  induction entries generalizing results with
  | nil =>
      rw [List.map_eq_nil_iff.mp items] at member
      cases member
  | cons entry entries inductionHypothesis =>
      cases known : entry.identity with
      | none =>
          simp only [embeddable, List.filterMap_cons, known, Option.map_none] at items
          simp only [assigned, known]
          exact List.mem_cons_of_mem _ (inductionHypothesis items member)
      | some identity =>
          simp only [embeddable, List.filterMap_cons, known, Option.map_some] at items
          obtain ⟨⟨first, outcome⟩, later, rfl, rfl, others⟩ := List.map_eq_cons_iff.mp items
          simp only [assigned, known, List.map_cons]
          rcases List.mem_cons.mp member with same | behind
          · cases same
            exact List.mem_cons_self
          · exact List.mem_cons_of_mem _ (inductionHypothesis others behind)

/-- Each generated query of a report was generated from a document of the report. -/
theorem MayReport.exists_source {workers : Nat} {batch : List Document} {report : Report}
    {accounts : List Account} {query : Document}
    (reported : MayReport schema config workers batch report accounts)
    (member : query ∈ report.generated) :
    ∃ document ∈ authored batch, ∃ (passage : Passage schema config document)
      (identity : Identity)
      (generation : Generation passage.outcome identity (indexOf schema config (authored batch))),
      passage.identity = some identity ∧ passage.outcome ∈ report.documents ∧
        query = generation.outcome := by
  obtain ⟨crew, stands, isDone, rfl, _⟩ := reported
  obtain ⟨item, result⟩ :=
    exists_result_of_mem_generated (fun _ => isGenerated_of_mem_authored) member
  obtain ⟨embedding, made, _, isQuery⟩ :=
    isIssued_of_mem_results (Workers.flatten_split workers _) stands result query rfl
  have items := (results_of_done stands isDone).1
  have isItem : item ∈ embeddable ((authored batch).map (entryOf schema config)) := by
    rw [← paginated, ← items]
    exact List.mem_map_of_mem result
  obtain ⟨entry, among, named⟩ := List.mem_filterMap.mp isItem
  obtain ⟨document, isAuthored, rfl⟩ := List.mem_map.mp among
  obtain ⟨identity, known, rfl⟩ := Option.map_eq_some_iff.mp named
  obtain ⟨passage, whole⟩ := exists_passage_of_identity known
  have output : (entryOf schema config document).document ∈
      (reportFrom schema config (authored batch) crew.outcomes).documents := by
    apply List.mem_append_left
    rw [finished_eq_assigned, ← Crew.map_snd_results]
    exact List.mem_map.mpr ⟨_, mem_assigned_of_mem items result, rfl⟩
  rw [whole] at known output made
  obtain ⟨generation, rfl⟩ := Embedding.generate_eq_ok_iff.mp made
  exact ⟨document, isAuthored, passage, identity, generation, known, output, isQuery.symm⟩

end Sources

end Pipeline

/-! ## What a refetch spec says -/

namespace Embedding

/-- That an operation selects the wrapper and nothing else. -/
def SpreadsAlone (operation : Operation) (wrapper : Name) : Prop :=
  ∃ directives, operation.selections = [.spread ⟨wrapper, directives⟩]

/-- That an operation selects the wrapper within the field that looks an object up, behind the type
and the keys of the object. -/
def LooksUp (identity : Identity) (operation : Operation) (wrapper : Name) : Prop :=
  ∃ (field : Field) (directives : List Directive), operation.selections = [.field field] ∧
    identity.lookupField? = some field.name ∧
    field.selections =
      (Name.typename :: identity.keyFields.filter (· != Name.typename)).map
          (fun key => Selection.field (FieldOf.plain key [])) ++ [.spread ⟨wrapper, directives⟩]

/-- That a refetch spec describes an operation and its wrapper: the way to the object, the mode of
the marked field, and the path to it. -/
structure Corresponds (schema : Schema) (config : IdentityConfig) (identity : Identity)
    (spec : RefetchSpec) (operation : Operation) (wrapper : Fragment) (field : PaginatedField)
    (mode : PagingMode) (target : Field) : Prop where
  root : spec.embedded = false ↔ SpreadsAlone operation wrapper.name
  rootType : spec.embedded = false → schema.queryRoot?.map (·.text) = some spec.targetType
  lookup : spec.embedded = true ↔ LooksUp identity operation wrapper.name
  /-- The keys that a lookup selects are those of the type. -/
  keys : spec.embedded = true →
    identity.keyFields.map (·.text) = Identity.configuredKeys config wrapper.condition
  lookupType : spec.embedded = true →
    identity = .node ∧ spec.targetType = "Node" ∨
      ∃ queryField arguments, identity = .resolver wrapper.condition queryField arguments ∧
        spec.targetType = wrapper.condition.text
  /-- The field is the only marked one of the wrapper. -/
  found : PaginatedField.findIn schema (.fragment wrapper) = .ok (some field)
  detected : PagingMode.detect schema field = .ok mode
  method : spec.method = mode.method
  direction : spec.direction = mode.direction
  arguments : ∀ argument : PagingArgument,
    argument.name ∈ target.arguments.map (·.name) ↔ argument ∈ mode.arguments
  path : spec.path = field.path.map Name.text
  leads : LeadsTo target field.path field.indices wrapper.selections
  marked : (PassDirective.findPaginate? target.directives).isSome = true

variable {schema : Schema} {identity : Identity} {operation : Operation} {spread : Spread}

theorem spreadsAlone_iff
    (selects : identity.Selects spread operation.selections) :
    SpreadsAlone operation spread.fragment ↔ identity.lookupField? = none := by
  generalize isSelections : operation.selections = selections at selects
  unfold SpreadsAlone
  rw [isSelections]
  cases selects with
  | root isRoot => exact ⟨fun _ => isRoot, fun _ => ⟨spread.directives, rfl⟩⟩
  | lookup isLookup named passes selects =>
      rw [isLookup]
      constructor
      · rintro ⟨directives, same⟩
        cases same
      · exact nofun

theorem looksUp_iff
    (selects : identity.Selects spread operation.selections) :
    LooksUp identity operation spread.fragment ↔ identity.lookupField? ≠ none := by
  generalize isSelections : operation.selections = selections at selects
  unfold LooksUp
  rw [isSelections]
  cases selects with
  | root isRoot =>
      constructor
      · rintro ⟨field, directives, same, _⟩
        cases same
      · intro isLookup
        exact absurd isRoot isLookup
  | @lookup field isLookup named passes selects =>
      constructor
      · rintro ⟨other, directives, same, otherLookup, _⟩
        rw [otherLookup]
        exact nofun
      · intro _
        exact ⟨field, spread.directives, rfl, isLookup, selects⟩

end Embedding

theorem Identity.Resolves.lookupField?_eq_none_iff {schema : Schema} {queryRoot : Name}
    {type : String} {identity : Identity}
    (resolves : Resolves schema queryRoot type identity) :
    identity.lookupField? = none ↔ queryRoot.text = type := by
  cases resolves with
  | root isRoot => exact ⟨fun _ => isRoot, fun _ => rfl⟩
  | node below => exact ⟨nofun, fun isRoot => absurd isRoot below⟩
  | resolver below _ _ _ => exact ⟨nofun, fun isRoot => absurd isRoot below⟩

theorem Identity.Resolves.cases_of_below {schema : Schema} {queryRoot condition : Name}
    {identity : Identity}
    (resolves : Resolves schema queryRoot condition identity)
    (below : queryRoot.text ≠ condition.text) :
    identity = .node ∧ identity.targetType = "Node" ∨
      ∃ queryField arguments, identity = .resolver condition queryField arguments ∧
        identity.targetType = condition.text := by
  cases resolves with
  | root isRoot => exact absurd isRoot below
  | node _ => exact Or.inl ⟨rfl, rfl⟩
  | resolver _ isNamed _ _ =>
      rw [Name.eq_of_text_eq isNamed]
      exact Or.inr ⟨_, _, rfl, rfl⟩

namespace Passage

variable {schema : Schema} {config : IdentityConfig} {document : Document} {body : Fragment}
  (passage : Passage schema config document)
  (isFragment : passage.outcome.fragment? = some body)

include isFragment

theorem primary?_of_fragment? :
    passage.outcome.primary? = some (.fragment body) := by
  unfold Document.fragment? at isFragment
  obtain ⟨definition, primary, isBody⟩ := Option.bind_eq_some_iff.mp isFragment
  cases definition with
  | operation other => cases isBody
  | fragment other =>
      cases isBody
      exact primary

/-- A fragment is looked up unless it is written for the query root. -/
theorem embedded_iff :
    (RefetchSpec.build passage.inputs).embedded = true ↔
      passage.queryRoot.text ≠ body.condition.text := by
  have kind : passage.kind = .fragment := by
    have hasKind := passage.hasKind
    have primary : passage.promoted.primary? = some (.fragment body) :=
      passage.primary?_of_fragment? isFragment
    rw [Document.kind?, primary] at hasKind
    exact (Option.some.inj hasKind).symm
  have condition : passage.promoted.fragment?.map (·.condition.text) = some body.condition.text :=
    congrArg (Option.map _) isFragment
  simp only [RefetchSpec.build, RefetchInputs.isOnRoot, inputs, kind, condition,
    DocumentKind.isFragment, Option.all_some, Bool.true_and, Bool.not_eq_true', beq_eq_false_iff_ne]
  exact ne_comm

theorem targetType_eq {identity : Identity}
    (known : passage.identity = some identity) :
    (RefetchSpec.build passage.inputs).targetType =
      if passage.queryRoot.text = body.condition.text then passage.queryRoot.text
      else identity.targetType := by
  have condition : passage.promoted.fragment?.map (·.condition.text) = some body.condition.text :=
    congrArg (Option.map _) isFragment
  simp only [RefetchSpec.build, RefetchInputs.isOnRoot, inputs, known, condition, Option.all_some,
    beq_iff_eq]
  exact if_congr eq_comm rfl rfl

/-- The marked field of a fragment is found again in each copy of it, where its path leads. -/
theorem exists_target (name : Name) :
    PaginatedField.findIn schema (.fragment { body with name }) =
        .ok (some passage.promotedField) ∧
      ∃ target : Field, target.arguments = passage.promotedField.arguments ∧
        LeadsTo target passage.field.path passage.field.indices body.selections ∧
        (PassDirective.findPaginate? target.directives).isSome = true := by
  have isFound := passage.find_processed
  rw [PaginatedField.find, passage.primary?_of_fragment? isFragment] at isFound
  refine ⟨isFound, ?_⟩
  obtain ⟨found, only, _, read⟩ := PaginatedField.findIn_eq_ok_some_iff.mp isFound
  obtain ⟨_, _, _, _, whole⟩ := PaginatedField.ofMarked_eq_ok_iff.mp read
  have member : found ∈ MarkedField.inDefinition schema (.fragment body) := by
    rw [only]
    exact List.mem_cons_self
  have isPrimary := passage.primary?_of_fragment? isFragment
  have told := Document.isTold_of_mem_marked
    (Document.mem_marked_iff.mpr ⟨_, isPrimary, member⟩)
  have isTarget := told.field
  rw [Document.field?_of_primary? isPrimary] at isTarget
  have samePath : passage.field.path = keysAlong body.selections found.indices :=
    (congrArg PaginatedField.path whole).trans
      (told.path.trans (Document.keysAlong_of_primary? isPrimary _))
  have sameIndices : passage.field.indices = found.indices :=
    congrArg PaginatedField.indices whole
  refine ⟨found.field, (congrArg PaginatedField.arguments whole).symm, ?_, ?_⟩
  · rw [samePath, sameIndices]
    exact leadsTo_keysAlong isTarget
  · rw [told.mark]
    rfl

end Passage

namespace Pipeline

variable {schema : Schema} {config : IdentityConfig} {document : Document} {identity : Identity}
  {index : FragmentIndex}

/-- The refetch spec of a fragment describes the query that is generated for it. -/
theorem corresponds_of_generation {passage : Passage schema config document}
    (generation : Generation passage.outcome identity index)
    (known : passage.identity = some identity) :
    ∃ target, Embedding.Corresponds schema config identity (RefetchSpec.build passage.inputs)
      (Embedding.queryOperation generation.query generation.wrapper generation.parameters
        generation.declared identity)
      { generation.fragment with name := generation.wrapper } passage.promotedField passage.mode
      target := by
  have isFragment := generation.isFragment
  have resolved := passage.resolve_of_identity isFragment known
  obtain ⟨queryRoot, hasRoot, resolves⟩ := Identity.resolves_of_resolve resolved
  have sameRoot : passage.queryRoot = queryRoot := by
    have root := passage.hasRoot
    rw [hasRoot, Option.some.injEq] at root
    exact root.symm
  have selects : identity.Selects
      ⟨generation.wrapper, Embedding.forwarding generation.parameters.names⟩
      (Embedding.queryOperation generation.query generation.wrapper generation.parameters
        generation.declared identity).selections := by
    rw [Embedding.queryOperation, Embedding.wrapperSpread_eq]
    exact identity.selects_lookupSelections _
  have embedded := passage.embedded_iff isFragment
  have targetType := passage.targetType_eq isFragment known
  rw [sameRoot] at embedded targetType
  obtain ⟨found, target, sameArguments, leads, marked⟩ :=
    passage.exists_target isFragment generation.wrapper
  refine ⟨target, ?_⟩
  constructor
  case root =>
    rw [Embedding.spreadsAlone_iff selects, resolves.lookupField?_eq_none_iff,
      ← Bool.not_eq_true, embedded, not_not]
  case rootType =>
    intro unembedded
    rw [← Bool.not_eq_true, embedded, not_not] at unembedded
    rw [targetType, if_pos unembedded, hasRoot, Option.map_some]
  case lookup =>
    rw [Embedding.looksUp_iff selects, ne_eq, resolves.lookupField?_eq_none_iff, embedded]
  case keys =>
    intro isEmbedded
    exact (Identity.configured_of_resolve hasRoot (embedded.mp isEmbedded) resolved).map_keyFields
  case lookupType =>
    intro isEmbedded
    have below := embedded.mp isEmbedded
    rw [targetType, if_neg below]
    exact resolves.cases_of_below below
  case found => exact found
  case detected => exact Promotion.detect_promoted passage.isDetected passage.isPromoted
  case method => rfl
  case direction => rfl
  case arguments =>
    intro argument
    rw [sameArguments]
    exact passage.mem_names_promotedField_iff
  case path => rfl
  case leads => exact leads
  case marked => exact marked

/-- Every generated query of a report, whether of a run or of workers that take turns, carries the
refetch spec that its fragment has in the report, and the spec describes the query. -/
theorem corresponds_of_mem_generated {workers : Nat} {batch : List Document} {report : Report}
    (reports : run schema config workers batch = .ok report ∨
      ∃ accounts, MayReport schema config workers batch report accounts) :
    ∀ query ∈ report.generated, ∃ source ∈ report.documents,
      ∃ fragment spec operation wrapper identity field mode target, ∃ others : List Fragment,
        source.fragment? = some fragment ∧ source.refetch = some spec ∧
        query.refetch = some spec ∧
        query.definitions =
          .operation operation :: .fragment wrapper :: others.map Definition.fragment ∧
        wrapper = { fragment with name := wrapper.name } ∧
        Identity.resolve schema config fragment.condition = .ok identity ∧
        Embedding.Corresponds schema config identity spec operation wrapper field mode target := by
  intro query member
  obtain ⟨accounts, reported⟩ := reports.elim exists_mayReport_of_run id
  obtain ⟨document, _, passage, identity, generation, known, output, rfl⟩ :=
    reported.exists_source member
  obtain ⟨target, corresponds⟩ := corresponds_of_generation generation known
  exact ⟨passage.outcome, output, generation.fragment, _, _,
    { generation.fragment with name := generation.wrapper }, identity, passage.promotedField,
    passage.mode, target, generation.included, generation.isFragment, rfl, rfl, rfl, rfl,
    passage.resolve_of_identity generation.isFragment known, corresponds⟩

/-- The query of the page fragment describes itself by its refetch spec. -/
theorem corresponds_of_mem_generated_sample :
    ∃ report query, run Sample.schema .standard 1 Sample.batch = .ok report ∧
      query ∈ report.generated ∧ ∃ source ∈ report.documents,
        ∃ fragment spec operation wrapper identity field mode target, ∃ others : List Fragment,
          source.fragment? = some fragment ∧ source.refetch = some spec ∧
          query.refetch = some spec ∧
          query.definitions =
            .operation operation :: .fragment wrapper :: others.map Definition.fragment ∧
          wrapper = { fragment with name := wrapper.name } ∧
          Identity.resolve Sample.schema .standard fragment.condition = .ok identity ∧
          Embedding.Corresponds Sample.schema .standard identity spec operation wrapper field mode
            target := by
  have hasRoot : Sample.schema.queryRoot? = some Sample.queryType := by decide
  have result := run_eq hasRoot .standard 1 Sample.batch
  exact ⟨_, _, result, Sample.mem_generated,
    corresponds_of_mem_generated (.inl result) _ Sample.mem_generated⟩

end Pipeline

end QueryPaging
