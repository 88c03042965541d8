import QueryPaging.Proofs.Batches
import QueryPaging.Proofs.Naming
import QueryPaging.Proofs.Reaching
import QueryPaging.Proofs.Scoping

/-!
# Queries that declare what they send

The variables of a generated query are those of the fragment it was generated for and those of the
lookup. They suffice for its operation and for its wrapper, but the fragments that the wrapper
reaches come with parameters of their own, and the directives that gave those their values are not
sent.

- `Pipeline.isSelfSufficient_iff`: a generated query declares all it sends just where the fragments
  it reaches use none but its variables.
-/

namespace QueryPaging

/-- Whether the operation of a document declares every variable in the text that is sent. -/
def Document.IsSelfSufficient (document : Document) : Prop :=
  ∀ definition ∈ stripDefinitions document.definitions, ∀ name ∈ definition.references,
    ∃ operation, document.operation? = some operation ∧
      name ∈ operation.declarations.map (·.name)

/-! ## The lookup -/

namespace Identity

variable (identity : Identity)

def lookupNames : List Name :=
  identity.lookupVariables.map (·.argument)

theorem names_lookupRequests :
    identity.lookupRequests.map (·.name) = identity.lookupNames := by
  rw [lookupRequests, List.map_map]
  rfl

theorem mem_references_passed {passed : List LookupVariable} {name : Name}
    (member : name ∈ (passed.map fun wanted =>
      Argument.mk wanted.argument (.reference wanted.argument)).flatMap Argument.references) :
    name ∈ passed.map (·.argument) := by
  obtain ⟨argument, among, inside⟩ := List.mem_flatMap.mp member
  obtain ⟨wanted, isVariable, rfl⟩ := List.mem_map.mp among
  rw [Argument.references, Value.references, List.mem_singleton] at inside
  exact List.mem_map.mpr ⟨wanted, isVariable, inside.symm⟩

theorem references_plain (key : Name) :
    (Selection.field (FieldOf.plain key [])).references = [] := by
  rw [references_field, FieldOf.plain, referencesOf_nil]
  rfl

/-- A lookup passes its own variables, and around the spread it refers to nothing else. -/
theorem mem_references_lookupSelections {spread : Selection} {name : Name}
    (member : name ∈ referencesOf (identity.lookupSelections spread)) :
    name ∈ identity.lookupNames ∨ name ∈ spread.references := by
  unfold lookupSelections at member
  split at member
  · rw [referencesOf_cons, referencesOf_nil, List.append_nil] at member
    exact Or.inr member
  · rw [referencesOf_cons, referencesOf_nil, List.append_nil, references_field,
      List.mem_append, List.mem_append] at member
    rcases member with (passed | directive) | inside
    · exact Or.inl (mem_references_passed passed)
    · cases directive
    · obtain ⟨selection, among, mentioned⟩ := mem_referencesOf_iff.mp inside
      rcases List.mem_append.mp among with isKey | isSpread
      · obtain ⟨key, _, rfl⟩ := List.mem_map.mp isKey
        rw [references_plain] at mentioned
        cases mentioned
      · rw [List.mem_singleton] at isSpread
        exact Or.inr (isSpread ▸ mentioned)

end Identity

theorem Embedding.mem_references_wrapperSpread {wrapper name : Name} {parameters : VariableSet}
    (member : name ∈ (wrapperSpread wrapper parameters).references) :
    name ∈ parameters.names := by
  rw [wrapperSpread, references_spread] at member
  split at member
  · cases member
  · rw [List.flatMap_singleton] at member
    obtain ⟨argument, among, inside⟩ := List.mem_flatMap.mp member
    obtain ⟨parameter, isParameter, rfl⟩ := List.mem_map.mp among
    rw [Argument.references, Value.references, List.mem_singleton] at inside
    exact inside ▸ isParameter

/-! ## What a generated query declares -/

namespace Generation

variable {document : Document} {identity : Identity} {index : FragmentIndex}
  (generation : Generation document identity index)

/-- A generated query declares the parameters of its fragment and the variables of the lookup. -/
theorem mem_names_declared_iff {name : Name} :
    name ∈ generation.declared.names ↔
      name ∈ generation.parameters.names ∨ name ∈ identity.lookupNames := by
  rw [(VariableSet.merge_extends generation.isDeclared).mem_names_iff,
    Identity.names_lookupRequests]

theorem isSelfSufficient_iff_declared :
    generation.outcome.IsSelfSufficient ↔
      ∀ definition ∈ generation.definitions, ∀ name ∈ definition.stripped.references,
        name ∈ generation.declared.names := by
  have names : generation.declared.definitions.map (·.name) = generation.declared.names := by
    rw [VariableSet.definitions, List.map_map]
    rfl
  constructor
  · intro sufficient definition member name occurs
    obtain ⟨operation, isOperation, declared⟩ :=
      sufficient definition.stripped (List.mem_map_of_mem member) name occurs
    cases isOperation
    exact names ▸ declared
  · intro sufficient definition member name occurs
    obtain ⟨source, among, rfl⟩ := List.mem_map.mp member
    refine ⟨_, rfl, ?_⟩
    exact names.symm ▸ sufficient source among name occurs

/-- A default of a declared variable is one of the fragment's parameters; the variables of the
lookup have none. -/
theorem mem_bindings_of_default {binding : VariableBinding} {name : Name}
    (member : binding ∈ generation.declared.bindings)
    (inside : name ∈ (binding.default.map Value.references).getD []) :
    binding ∈ generation.parameters.bindings := by
  obtain ⟨added, extended, fromLookup⟩ :=
    (VariableSet.merge_extends generation.isDeclared).bindings
  rw [extended] at member
  rcases List.mem_append.mp member with before | new
  · exact before
  · obtain ⟨request, among, rfl⟩ := fromLookup binding new
    obtain ⟨wanted, _, rfl⟩ := List.mem_map.mp among
    cases inside

/-- The operation of a generated query declares all it uses, if the defaults of the fragment's
parameters refer to parameters. -/
theorem mem_names_of_mem_references_operation
    (defaults : ∀ binding ∈ generation.parameters.bindings,
      ∀ name ∈ (binding.default.map Value.references).getD [],
        name ∈ generation.parameters.names)
    {name : Name}
    (member : name ∈ (Definition.operation (Embedding.queryOperation generation.query
      generation.wrapper generation.parameters generation.declared identity)).references) :
    name ∈ generation.declared.names := by
  rw [mem_names_declared_iff]
  simp only [Definition.references, Embedding.queryOperation, List.flatMap_nil, List.append_nil,
    List.mem_append] at member
  rcases member with declaration | selected
  · obtain ⟨declaration, among, mentioned⟩ := List.mem_flatMap.mp declaration
    obtain ⟨binding, bound, rfl⟩ := List.mem_map.mp among
    have inside : name ∈ (binding.default.map Value.references).getD [] := by
      simpa [VariableDefinition.references, VariableSet.toDefinition] using mentioned
    have isParameter := generation.mem_bindings_of_default bound inside
    exact Or.inl (defaults binding isParameter name inside)
  · rcases identity.mem_references_lookupSelections selected with passed | spread
    · exact Or.inr passed
    · exact Or.inl (Embedding.mem_references_wrapperSpread spread)

end Generation

/-! ## The exact condition -/

namespace Passage

variable {schema : Schema} {config : IdentityConfig} {document : Document}
  (passage : Passage schema config document) {identity : Identity} {index : FragmentIndex}
  (generation : Generation passage.outcome identity index)

include generation in
/-- The fragment of the query is the definition that the passage rewrote, and its parameters are
the variables after promotion. -/
theorem fragment_of_generation (rewriting : passage.Rewriting) :
    rewriting.changed = .fragment generation.fragment ∧
      generation.parameters = passage.promotion.variableSet.asDeclared := by
  constructor
  · have isFragment := generation.isFragment
    have primary : passage.outcome.primary? = some rewriting.changed := rewriting.primary?_outcome
    rw [Document.fragment?, primary, Option.bind_some] at isFragment
    cases same : rewriting.changed with
    | operation body =>
        rw [same] at isFragment
        cases isFragment
    | fragment body =>
        rw [same] at isFragment
        exact congrArg Definition.fragment (Option.some.inj isFragment)
  · have isRead := generation.isRead
    have again : passage.outcome.variableSet = .ok passage.promotion.variableSet.asDeclared :=
      rewriting.variableSet_outcome
    rw [again] at isRead
    exact (Except.ok.inj isRead).symm

include passage in
/-- Of a fragment that declared what it uses, the query declares all it sends just where the
fragments that it reaches use none but its variables. -/
theorem isSelfSufficient_outcome_iff
    (declares : document.DeclaresUses) :
    generation.outcome.IsSelfSufficient ↔
      ∀ fragment ∈ generation.included, ∀ name ∈ (Definition.fragment fragment).stripped.references,
        name ∈ generation.parameters.names ∨ name ∈ identity.lookupNames := by
  obtain ⟨rewriting⟩ := passage.exists_rewriting
  obtain ⟨whole, sameParameters⟩ := passage.fragment_of_generation generation rewriting
  -- The rewritten fragment still declares what it uses, and so does its renamed copy.
  have inFragment : ∀ name ∈ (Definition.fragment generation.fragment).references,
      name ∈ generation.parameters.names := by
    intro name occurs
    rw [sameParameters, VariableSet.names_asDeclared]
    exact passage.mem_names_of_mem_references rewriting declares (whole ▸ occurs)
  have isRead : Document.variableSetOf (.fragment generation.fragment) =
      .ok generation.parameters := by
    have primary : passage.outcome.primary? = some rewriting.changed := rewriting.primary?_outcome
    rw [← whole, ← Document.variableSet_eq primary]
    exact generation.isRead
  have defaults : ∀ binding ∈ generation.parameters.bindings,
      ∀ name ∈ (binding.default.map Value.references).getD [],
        name ∈ generation.parameters.names := by
    intro binding bound name inside
    exact inFragment name (Document.references_default_subset isRead bound inside)
  rw [generation.isSelfSufficient_iff_declared]
  constructor
  · intro sufficient fragment among name occurs
    have inside : Definition.fragment fragment ∈ generation.definitions :=
      List.mem_cons_of_mem _ (List.mem_cons_of_mem _ (List.mem_map_of_mem among))
    exact generation.mem_names_declared_iff.mp (sufficient _ inside name occurs)
  · intro reached definition member name occurs
    rcases List.mem_cons.mp member with rfl | later
    · exact generation.mem_names_of_mem_references_operation defaults (stripped_subset _ occurs)
    rcases List.mem_cons.mp later with rfl | isIncluded
    · have inCopy := stripped_subset _ occurs
      exact generation.mem_names_declared_iff.mpr (Or.inl (inFragment name inCopy))
    · obtain ⟨fragment, among, rfl⟩ := List.mem_map.mp isIncluded
      exact generation.mem_names_declared_iff.mpr (reached fragment among name occurs)

end Passage

/-- The query of the first document of a batch is in the report if its names are free. -/
theorem Pipeline.mem_generated_of_first {schema : Schema} {config : IdentityConfig}
    {document : Document} {others : List Document} {identity : Identity}
    (generation : Generation (entryOf schema config document).document identity
      (fragmentIndex ((document :: others).map (entryOf schema config))))
    (known : (entryOf schema config document).identity = some identity)
    (freeQuery : (NameRegistry.seeded ((document :: others).map (·.name))).get? generation.query =
      none)
    (freeWrapper :
      (NameRegistry.seeded ((document :: others).map (·.name))).get? generation.wrapper = none) :
    generation.outcome ∈ (reportOf schema config (document :: others)).generated := by
  obtain ⟨later, embedded⟩ := Embedding.exists_embed_of_free generation freeQuery freeWrapper
  have opens : ∃ behind, embeddedOf schema config (document :: others) =
      (entryOf schema config document,
        (embedStep (fragmentIndex ((document :: others).map (entryOf schema config)))
          (NameRegistry.seeded ((document :: others).map (·.name)))
          (entryOf schema config document)).1) :: behind :=
    ⟨_, rfl⟩
  obtain ⟨behind, opens⟩ := opens
  refine List.mem_filter.mpr ⟨List.mem_append_right _ ?_, rfl⟩
  rw [opens, embedStep_of_embed known embedded]
  exact List.mem_cons_self

/-! ## The small batch -/

namespace Sample

/-- The variables of the page fragment after promotion. -/
def pagedVariables : VariableSet where
  bindings :=
    [⟨PagingArgument.limit.name, .named Name.intType false, some (.int "10"), .declared⟩,
      ⟨PagingArgument.offset.name, .named Name.intType false, none, .declared⟩]
  distinct := by decide

def pagedFragment : Fragment where
  name := page
  condition := queryType
  directives := Document.declareParameters pagedVariables []
  selections :=
    [.field ⟨none, items,
        [⟨PagingArgument.limit.name, .reference PagingArgument.limit.name⟩,
          ⟨PagingArgument.offset.name, .reference PagingArgument.offset.name⟩],
        [mark], [], none⟩,
      .spread ⟨part, [⟨PassDirective.withName, [⟨size, .int "5"⟩]⟩]⟩]
  span := none

/-- The batch after the first phase. -/
def entries : List Processed :=
  (Pipeline.authored batch).map (Pipeline.entryOf schema .standard)

/-- The page fragment among them. -/
def paged : Processed :=
  Pipeline.entryOf schema .standard (Document.ofDefinition "sample.graphql" pageFragment)

theorem fragmentIndex_entries :
    Pipeline.fragmentIndex entries = [(page, pagedFragment), (part, partBody)] := by
  rfl

theorem variableSet_paged :
    paged.document.variableSet = .ok pagedVariables := by
  have primary : paged.document.primary? = some (.fragment pagedFragment) := by rfl
  rw [Document.variableSet_eq primary]
  exact Document.ofFragment_declared pagedVariables { pagedFragment with directives := [] }

theorem reachable_pagedFragment :
    (Pipeline.fragmentIndex entries).reachable pagedFragment = .ok [partBody] := by
  have toPart : spreadNamesOf pagedFragment.selections = [part] := by rfl
  have toNone : spreadNamesOf partBody.selections = [] := by rfl
  exact FragmentIndex.reachable_of_leaf toPart (by decide) (by rw [fragmentIndex_entries]; rfl)
    toNone

def generation :
    Generation paged.document (.root queryType) (Pipeline.fragmentIndex entries) where
  fragment := pagedFragment
  parameters := pagedVariables
  query := ⟨paginationQueryName page, isNameText_paginationQueryName page⟩
  wrapper := ⟨wrapperName page pagedVariables.canonicalText, isNameText_wrapperName page _⟩
  declared := pagedVariables
  included := [partBody]
  isFragment := by rfl
  isRead := variableSet_paged
  isQuery := Name.require_eq_ok_iff.mpr rfl
  isWrapper := Name.require_eq_ok_iff.mpr rfl
  isDeclared := by rfl
  isIncluded := reachable_pagedFragment

theorem declaresUses_batch :
    ∀ document ∈ Pipeline.authored batch, document.DeclaresUses := by
  intro document member definition primary name occurs
  have among : document ∈ batch := (List.mem_filter.mp member).1
  simp only [batch, List.map_cons, List.map_nil, List.mem_cons, List.not_mem_nil, or_false]
    at among
  rcases among with rfl | rfl | rfl
  · cases primary
    have uses : pageFragment.references = [] := by rfl
    rw [uses] at occurs
    cases occurs
  · cases primary
    have uses : partFragment.references = [size] := by rfl
    rw [uses, List.mem_singleton] at occurs
    let parameters : VariableSet := ⟨[⟨size, .named Name.intType false, none, .declared⟩], by decide⟩
    refine ⟨parameters, ?_, by rw [occurs]; decide⟩
    exact Document.ofFragment_declared parameters { partBody with directives := [] }
  · cases primary
    have uses : twiceOperation.references = [] := by rfl
    rw [uses] at occurs
    cases occurs

/-- A name that opens like those of the page fragment's query is free where no author has one. -/
theorem get?_seeded_page {authored : List String}
    (apart : ∀ name ∈ authored, name.toList.take 5 ≠ "Page_".toList)
    (suffix : String) :
    (NameRegistry.seeded authored).get? ("Page_" ++ suffix) = none := by
  refine NameRegistry.get?_seeded_eq_none fun taken => apart _ taken ?_
  rw [String.toList_append]
  rfl

theorem free_names {authored : List String}
    (apart : ∀ name ∈ authored, name.toList.take 5 ≠ "Page_".toList) :
    (NameRegistry.seeded authored).get? generation.query = none ∧
      (NameRegistry.seeded authored).get? generation.wrapper = none :=
  ⟨get?_seeded_page apart "Pagination_Query",
    get?_seeded_page apart (shortDigest pagedVariables.canonicalText)⟩

/-- The query of the page fragment is embedded where its names are free. -/
theorem exists_embed_paged {authored : List String}
    (apart : ∀ name ∈ authored, name.toList.take 5 ≠ "Page_".toList) :
    ∃ later, Embedding.embed paged.document (.root queryType) (Pipeline.fragmentIndex entries)
      (NameRegistry.seeded authored) = (.ok generation.outcome, later) :=
  Embedding.exists_embed_of_free generation (free_names apart).1 (free_names apart).2

theorem embedStep_paged {registry later : NameRegistry}
    (embedded : Embedding.embed paged.document (.root queryType)
      (Pipeline.fragmentIndex entries) registry = (.ok generation.outcome, later)) :
    Pipeline.embedStep (Pipeline.fragmentIndex entries) registry paged =
      (some (.ok generation.outcome), later) :=
  Pipeline.embedStep_of_embed rfl embedded

/-- The query of the page fragment is in the report. -/
theorem mem_generated :
    generation.outcome ∈
      (Pipeline.reportOf schema .standard (Pipeline.authored batch)).generated := by
  have names : (Pipeline.authored batch).map (·.name) = ["Page", "Part", "Twice"] := by rfl
  have apart : ∀ name ∈ (Pipeline.authored batch).map (·.name),
      name.toList.take 5 ≠ "Page_".toList := by
    rw [names]
    decide
  obtain ⟨freeQuery, freeWrapper⟩ := free_names apart
  exact Pipeline.mem_generated_of_first generation rfl freeQuery freeWrapper

end Sample

namespace Pipeline

/-- A query that a run generates declares all it sends just where the fragments that it reaches use
none but the parameters of its fragment and the variables of the lookup. -/
theorem isSelfSufficient_iff {schema : Schema} {config : IdentityConfig} {workers : Nat}
    {batch : List Document} {report : Report} {query : Document}
    (declares : ∀ document ∈ authored batch, document.DeclaresUses)
    (result : run schema config workers batch = .ok report)
    (member : query ∈ report.generated) :
    ∃ document ∈ authored batch, ∃ (passage : Passage schema config document)
      (identity : Identity) (generation : Generation passage.outcome identity
        (fragmentIndex ((authored batch).map (entryOf schema config)))),
      query = generation.outcome ∧
        (query.IsSelfSufficient ↔
          ∀ fragment ∈ generation.included,
            ∀ name ∈ (Definition.fragment fragment).stripped.references,
              name ∈ generation.parameters.names ∨ name ∈ identity.lookupNames) := by
  have isReport : report = reportOf schema config (authored batch) := by
    cases hasRoot : schema.queryRoot? with
    | none => simp [run, hasRoot] at result
    | some queryRoot =>
        rw [run_eq hasRoot] at result
        exact (Except.ok.inj result).symm
  have isAuthored : ∀ document ∈ authored batch, document.isGenerated = false := by
    intro document among
    simpa [authored] using (List.mem_filter.mp among).2
  rw [isReport] at member
  obtain ⟨document, among, passage, identity, generation, _, rfl⟩ :=
    exists_generation_of_mem isAuthored member
  exact ⟨document, among, passage, identity, generation, rfl,
    passage.isSelfSufficient_outcome_iff generation (declares document among)⟩

/-- The query of the page fragment spreads another fragment that uses its own parameter. -/
theorem isSelfSufficient_iff_sample :
    (∀ document ∈ authored Sample.batch, document.DeclaresUses) ∧
      ∃ report query, run Sample.schema .standard 1 Sample.batch = .ok report ∧
        query ∈ report.generated ∧
        ∃ document ∈ authored Sample.batch, ∃ (passage : Passage Sample.schema .standard document)
          (identity : Identity) (generation : Generation passage.outcome identity
            (fragmentIndex ((authored Sample.batch).map (entryOf Sample.schema .standard)))),
          query = generation.outcome ∧
            (query.IsSelfSufficient ↔
              ∀ fragment ∈ generation.included,
                ∀ name ∈ (Definition.fragment fragment).stripped.references,
                  name ∈ generation.parameters.names ∨ name ∈ identity.lookupNames) := by
  have hasRoot : Sample.schema.queryRoot? = some Sample.queryType := by decide
  have result := run_eq hasRoot .standard 1 Sample.batch
  exact ⟨Sample.declaresUses_batch, _, _, result, Sample.mem_generated,
    isSelfSufficient_iff Sample.declaresUses_batch result Sample.mem_generated⟩

/-- Not every generated query declares all it sends: a fragment that it reaches may use a parameter
that only its own directives declare. -/
theorem not_forall_isSelfSufficient :
    ¬ ∀ (schema : Schema) (config : IdentityConfig) (workers : Nat) (batch : List Document)
      (report : Report), (∀ document ∈ authored batch, document.DeclaresUses) →
      run schema config workers batch = .ok report →
      ∀ query ∈ report.generated, query.IsSelfSufficient := by
  intro always
  have hasRoot : Sample.schema.queryRoot? = some Sample.queryType := by decide
  have sufficient := always Sample.schema .standard 1 Sample.batch _ Sample.declaresUses_batch
    (run_eq hasRoot .standard 1 Sample.batch) _ Sample.mem_generated
  have isIncluded : Sample.partFragment ∈ Sample.generation.definitions :=
    List.mem_cons_of_mem _ (List.mem_cons_of_mem _ List.mem_cons_self)
  have occurs : Sample.size ∈ Sample.partFragment.stripped.references := by decide
  have missing : Sample.size ∉ Sample.generation.declared.names := by decide
  exact missing
    (Sample.generation.isSelfSufficient_iff_declared.mp sufficient _ isIncluded _ occurs)

end Pipeline

end QueryPaging
