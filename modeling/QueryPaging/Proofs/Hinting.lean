import QueryPaging.Artifact
import QueryPaging.Proofs.Additions
import QueryPaging.Proofs.Correspondence
import QueryPaging.Proofs.Coverage
import QueryPaging.Proofs.Inlining
import QueryPaging.Proofs.Markings

/-!
# Hints and the lists they are for

The metadata of a query know hints for one direction only, that of its own fragment, and give them
to every paginated list in the query. Fragments that the query holds may page in another direction.

- `OpenLevel.HintsFit`: each hint is that of the paginated fields which its entry belongs to.
- `Pipeline.hintsFollow_of_mem_generated`: hints fit just where all these fields page in the
  direction of the query's own fragment.
- `Pipeline.not_forall_hintsFit`: a query may hold a fragment that pages in the other direction.
-/

namespace QueryPaging

/-- The hints for the pages of a mode, once for each definition that leads to the list. -/
def PagingMode.hints (variants : Nat) (mode : PagingMode) : List MergeHint :=
  (List.replicate variants (MergeHint.forDirection mode.direction)).flatten

/-- The hints of a generated query tell the direction. -/
theorem PagingMode.hints_eq_hints_iff {left right : PagingMode} :
    left.hints 2 = right.hints 2 ↔ left.direction = right.direction := by
  cases left <;> cases right <;> decide

theorem MergeHint.forSpec_eq {spec : RefetchSpec} {mode : PagingMode}
    (sameMethod : spec.method = mode.method)
    (sameDirection : spec.direction = mode.direction) :
    MergeHint.forSpec spec = MergeHint.forDirection mode.direction := by
  rw [MergeHint.forSpec, sameMethod, sameDirection]
  cases mode <;> rfl

namespace OpenLevel

variable {schema : Schema}

/-- An entry with hints that a walk comes to. -/
structure Hints (schema : Schema) (root level : OpenLevel) (place : EntryPlace)
    (entry : FieldMetadata) : Prop where
  opens : Opens schema root level
  found : level.recorded.entryAt? place = some entry
  hinted : entry.updates ≠ []

/-- Each entry with hints belongs to some paginated field, and its hints are those of the mode of
each that it belongs to. -/
def HintsFit (schema : Schema) (variants : Nat) (root : OpenLevel) : Prop :=
  ∀ level place entry, root.Hints schema level place entry →
    (∃ site, BelongsTo (level.leading schema place) site) ∧
      ∀ site, BelongsTo (level.leading schema place) site →
        ∃ mode, site.marking.mode? schema = some mode ∧ entry.updates = mode.hints variants

/-- The paginated fields that entries with hints belong to page in one direction. -/
def PagesToward (schema : Schema) (direction : PagingDirection) (root : OpenLevel) : Prop :=
  ∀ level place entry, root.Hints schema level place entry →
    ∀ site, BelongsTo (level.leading schema place) site →
      ∃ mode, site.marking.mode? schema = some mode ∧ mode.direction = direction

section Building

variable {builder : MetadataBuilder} {root : OpenLevel} {mode : PagingMode}
  (built : root.IsBuiltBy builder) (areHints : builder.hints = mode.hints 2)

include built areHints

/-- All hints are those of the builder's mode. -/
theorem updates_of_hints {level : OpenLevel} {place : EntryPlace} {entry : FieldMetadata}
    (hints : root.Hints builder.schema level place entry) :
    entry.updates = mode.hints 2 ∧ ∃ site, BelongsTo (level.leading builder.schema place) site := by
  rw [← areHints]
  exact updates_of_ne_nil (isBuiltBy_of_opens built hints.opens) hints.found hints.hinted

/-- The hints fit just where all paginated fields that receive some page in the direction of the
builder's mode. -/
theorem hintsFit_iff :
    root.HintsFit builder.schema 2 ↔ root.PagesToward builder.schema mode.direction := by
  constructor
  · intro fit level place entry hints site belongs
    obtain ⟨other, detected, same⟩ := (fit level place entry hints).2 site belongs
    rw [(updates_of_hints built areHints hints).1, PagingMode.hints_eq_hints_iff] at same
    exact ⟨other, detected, same.symm⟩
  · intro toward level place entry hints
    obtain ⟨areOwn, owned⟩ := updates_of_hints built areHints hints
    refine ⟨owned, fun site belongs => ?_⟩
    obtain ⟨other, detected, same⟩ := toward level place entry hints site belongs
    exact ⟨other, detected, by rw [areOwn, PagingMode.hints_eq_hints_iff, same]⟩

end Building

end OpenLevel

/-! ## Artifacts -/

namespace Artifact

/-- The metadata of an artifact with the selections of the document that it was made of. -/
def opened (schema : Schema) (document : Document) (artifact : Artifact) : OpenLevel where
  recorded := artifact.selection
  parent := artifact.rootType
  scopes :=
    [⟨schema.queryRoot?,
      (fragmentsOf document.definitions).expand (operationSelections document.definitions)⟩]
  trail := []

variable {schema : Schema} {document : Document} {artifact : Artifact}

theorem isBuiltBy_opened
    (built : build? schema document = some artifact) :
    (artifact.opened schema document).IsBuiltBy
      (builderOf schema document.refetch (variants document)) := by
  have isSelection : artifact.selection =
      selectionMetadata schema document.definitions artifact.rootType document.refetch
        (variants document) := by
    simp only [build?, bind, Option.bind_eq_some_iff] at built
    obtain ⟨operation, _, built⟩ := built
    split at built
    · cases built
    · obtain ⟨root, _, same⟩ := Option.bind_eq_some_iff.mp built
      cases same
      rfl
  refine ⟨nestingOf ((fragmentsOf document.definitions).expand
    (operationSelections document.definitions)), ?_⟩
  rw [opened, isSelection, selectionMetadata_eq, selectionsIn, List.flatMap_singleton]
  rfl

/-- The paginated fields of an artifact are those of the operation and of the fragments of the
document. -/
theorem isMarkedBy_opened {marks : List Marking}
    (ofOperation : ∀ marking ∈ marksOf schema schema.queryRoot?
      (operationSelections document.definitions), marking ∈ marks)
    (ofFragments : ∀ fragment ∈ document.definitions.filterMap Definition.fragment?,
      ∀ marking ∈ marksOf schema (some fragment.condition) fragment.selections, marking ∈ marks) :
    (artifact.opened schema document).IsMarkedBy schema marks := by
  refine ⟨fun marking member => ?_, fun group among => by cases among⟩
  rw [opened, marksIn, List.flatMap_singleton] at member
  rcases mem_marksOf_expand member with own | ⟨known, fragment, found, inside⟩
  · exact ofOperation marking own
  · obtain ⟨_, before, after, among, _⟩ := FragmentIndex.exists_last_of_get?_ofFragments found
    exact ofFragments fragment (by rw [among]; exact List.mem_append_right _ List.mem_cons_self)
      marking inside

end Artifact

/-! ## Generated queries -/

/-- A lookup marks nothing. -/
theorem Identity.marksOf_lookupSelections (identity : Identity) (schema : Schema)
    (type : Option Name) (spread : Spread) :
    marksOf schema type (identity.lookupSelections (.spread spread)) = [] := by
  have plain : ∀ (type : Option Name) (keys : List Name),
      marksOf schema type (keys.map fun key => .field (FieldOf.plain key [])) = [] := by
    intro type keys
    induction keys with
    | nil => exact marksOf_nil schema type
    | cons key others inductionHypothesis =>
        rw [List.map_cons, marksOf_cons, inductionHypothesis, marks_field]
        exact (List.append_nil _).trans (marksOf_nil schema (MarkedField.childType schema type key))
  have single : ∀ type : Option Name, marksOf schema type [.spread spread] = [] := by
    intro type
    rw [marksOf_cons, marks_spread, marksOf_nil, List.append_nil]
  unfold lookupSelections
  split
  · exact single type
  · rw [marksOf_cons, marksOf_nil, List.append_nil, marks_field]
    refine (List.nil_append _).trans ?_
    simp only [FieldOf.plain]
    rw [marksOf_append, single, List.append_nil]
    exact plain _ _

namespace Generation

variable {schema : Schema} {document : Document} {identity : Identity} {index : FragmentIndex}
  (generation : Generation document identity index)

/-- A generated query has an artifact. -/
theorem exists_artifact {queryRoot : Name}
    (hasRoot : schema.queryRoot? = some queryRoot) :
    ∃ artifact, Artifact.build? schema generation.outcome = some artifact := by
  apply Option.isSome_iff_exists.mp
  rw [Artifact.build?, hasRoot]
  rfl

theorem definitions_outcome_eq :
    generation.outcome.definitions =
      .operation (Embedding.queryOperation generation.query generation.wrapper
          generation.parameters generation.declared identity)
        :: .fragment { generation.fragment with name := generation.wrapper }
        :: generation.outcome.inlined.map Definition.fragment := by
  rw [generation.inlined_outcome]
  rfl

/-- The paginated fields of a generated query are those of its wrapper and of the fragments behind
it. -/
theorem isMarkedBy_opened {marks : List Marking} {artifact : Artifact}
    (ofWrapper : ∀ marking ∈ marksOf schema (some generation.fragment.condition)
      generation.fragment.selections, marking ∈ marks)
    (ofInlined : ∀ fragment ∈ generation.outcome.inlined,
      ∀ marking ∈ marksOf schema (some fragment.condition) fragment.selections, marking ∈ marks) :
    (artifact.opened schema generation.outcome).IsMarkedBy schema marks := by
  refine Artifact.isMarkedBy_opened ?_ ?_
  · intro marking member
    have selects : operationSelections generation.outcome.definitions =
        identity.lookupSelections (.spread ⟨generation.wrapper,
          Embedding.forwarding generation.parameters.names⟩) := by
      rw [generation.definitions_outcome_eq, ← Embedding.wrapperSpread_eq]
      rfl
    rw [selects, identity.marksOf_lookupSelections] at member
    cases member
  · intro fragment member
    rw [generation.definitions_outcome_eq, List.filterMap_cons, List.filterMap_cons,
      List.filterMap_map] at member
    rcases List.mem_cons.mp member with rfl | behind
    · exact ofWrapper
    · exact ofInlined fragment (by simpa [Definition.fragment?, Function.comp_def] using behind)

end Generation

/-! ## A query that pages two ways -/

namespace Feed

/-- The schema of feeds whose edges have a cursor and nothing else. -/
def cursorSchema : Schema :=
  schema [cursorField]

/-- A fragment that pages through the users and spreads one that pages through the logs. -/
def usersFragment : Definition :=
  .fragment ⟨Sample.page, Sample.queryType, [],
    [.field ⟨none, users, [⟨PagingArgument.first.name, .int "10"⟩], [Sample.mark],
        [infoSelection none], none⟩,
      .spread ⟨Sample.part, []⟩], none⟩

def logsFragment : Definition :=
  .fragment ⟨Sample.part, Sample.queryType, [],
    [.field ⟨none, logs, [⟨PagingArgument.last.name, .int "5"⟩], [Sample.mark],
        [infoSelection none], none⟩], none⟩

def batch : List Document :=
  [usersFragment, logsFragment].map (Document.ofDefinition "sample.graphql")

/-- The variables of the users fragment after promotion. -/
def usersVariables : VariableSet where
  bindings :=
    [⟨PagingArgument.first.name, PagingArgument.first.fallbackType, some (.int "10"), .declared⟩,
      ⟨PagingArgument.after.name, PagingArgument.after.fallbackType, none, .declared⟩]
  distinct := by decide

def logsVariables : VariableSet where
  bindings :=
    [⟨PagingArgument.last.name, PagingArgument.last.fallbackType, some (.int "5"), .declared⟩,
      ⟨PagingArgument.before.name, PagingArgument.before.fallbackType, none, .declared⟩]
  distinct := by decide

/-- A list that passes the arguments of its direction, with what augmentation adds to it. -/
def pagedList (name : Name) (arguments : List PagingArgument) : Field :=
  ⟨none, name, arguments.map fun argument => ⟨argument.name, .reference argument.name⟩,
    [Sample.mark],
    [infoSelection none,
      .field (FieldOf.plain Augmentation.edges [.field (FieldOf.plain Augmentation.cursor [])])],
    none⟩

def pagedUsers : Fragment where
  name := Sample.page
  condition := Sample.queryType
  directives := Document.declareParameters usersVariables []
  selections := [.field (pagedList users PagingArgument.forward), .spread ⟨Sample.part, []⟩]
  span := none

def pagedLogs : Fragment where
  name := Sample.part
  condition := Sample.queryType
  directives := Document.declareParameters logsVariables []
  selections := [.field (pagedList logs PagingArgument.backward)]
  span := none

/-- The users fragment after the first phase. -/
def processed : Processed :=
  Pipeline.entryOf cursorSchema .standard (Document.ofDefinition "sample.graphql" usersFragment)

def index : FragmentIndex :=
  Pipeline.fragmentIndex ((Pipeline.authored batch).map (Pipeline.entryOf cursorSchema .standard))

theorem index_eq :
    index = [(Sample.page, pagedUsers), (Sample.part, pagedLogs)] := by
  rfl

theorem variableSet_processed :
    processed.document.variableSet = .ok usersVariables := by
  have primary : processed.document.primary? = some (.fragment pagedUsers) := by rfl
  rw [Document.variableSet_eq primary]
  exact Document.ofFragment_declared usersVariables { pagedUsers with directives := [] }

theorem reachable_pagedUsers :
    index.reachable pagedUsers = .ok [pagedLogs] := by
  have toPart : spreadNamesOf pagedUsers.selections = [Sample.part] := by rfl
  have toNone : spreadNamesOf pagedLogs.selections = [] := by rfl
  exact FragmentIndex.reachable_of_leaf toPart (by decide) (by rw [index_eq]; rfl) toNone

/-- The query of the users fragment. -/
def generation : Generation processed.document (.root Sample.queryType) index where
  fragment := pagedUsers
  parameters := usersVariables
  query := ⟨paginationQueryName Sample.page, isNameText_paginationQueryName Sample.page⟩
  wrapper :=
    ⟨wrapperName Sample.page usersVariables.canonicalText, isNameText_wrapperName Sample.page _⟩
  declared := usersVariables
  included := [pagedLogs]
  isFragment := by rfl
  isRead := variableSet_processed
  isQuery := Name.require_eq_ok_iff.mpr rfl
  isWrapper := Name.require_eq_ok_iff.mpr rfl
  isDeclared := by rfl
  isIncluded := reachable_pagedUsers

theorem mem_generated :
    generation.outcome ∈
      (Pipeline.reportOf cursorSchema .standard (Pipeline.authored batch)).generated := by
  have names : (Pipeline.authored batch).map (·.name) = ["Page", "Part"] := by rfl
  have apart : ∀ name ∈ (Pipeline.authored batch).map (·.name),
      name.toList.take 5 ≠ "Page_".toList := by
    rw [names]
    decide
  exact Pipeline.mem_generated_of_first generation rfl
    (Sample.get?_seeded_page apart "Pagination_Query")
    (Sample.get?_seeded_page apart (shortDigest usersVariables.canonicalText))

/-- What the query selects once its spreads are replaced. -/
def selections : List Selection :=
  [.inline ⟨some Sample.queryType, [],
    [.field (pagedList users PagingArgument.forward),
      .inline ⟨some Sample.queryType, [], [.field (pagedList logs PagingArgument.backward)]⟩]⟩]

theorem expand_outcome :
    (fragmentsOf generation.outcome.definitions).expand
      (operationSelections generation.outcome.definitions) = selections := by
  have apart : generation.wrapper ≠ Sample.part := by
    intro same
    have opening : ("Page_" ++ shortDigest usersVariables.canonicalText).toList.take 5 =
        "Part".toList.take 5 :=
      congrArg (·.text.toList.take 5) same
    rw [String.toList_append] at opening
    exact absurd opening (by decide)
  have known : fragmentsOf generation.outcome.definitions =
      [(generation.wrapper, { pagedUsers with name := generation.wrapper }),
        (Sample.part, pagedLogs)] := by
    have both : fragmentsOf generation.outcome.definitions =
        Table.put Sample.part pagedLogs
          [(generation.wrapper, { pagedUsers with name := generation.wrapper })] := by
      rfl
    rw [both, Table.put, if_neg apart]
    rfl
  have toWrapper : (fragmentsOf generation.outcome.definitions).get? generation.wrapper =
      some { pagedUsers with name := generation.wrapper } := by
    rw [known, Table.get?, if_pos rfl]
  have toPart : (fragmentsOf generation.outcome.definitions).get? Sample.part =
      some pagedLogs := by
    rw [known, Table.get?, if_neg apart]
    rfl
  have depth : (fragmentsOf generation.outcome.definitions).length = 2 := by
    rw [known]
    rfl
  have selects : operationSelections generation.outcome.definitions =
      [.spread ⟨generation.wrapper, Embedding.forwarding usersVariables.names⟩] := by
    rfl
  rw [selects, FragmentIndex.expand, depth]
  simp only [expandAllWith, Selection.expandWith, FragmentIndex.resolve, toWrapper, pagedUsers,
    toPart, pagedLogs]
  rfl

/-- The metadata of the query. -/
def opened : OpenLevel where
  recorded := (builderOf cursorSchema generation.outcome.refetch 2).build "Query" selections
  parent := "Query"
  scopes := [⟨some Sample.queryType, selections⟩]
  trail := []

theorem opened_outcome {artifact : Artifact}
    (built : Artifact.build? cursorSchema generation.outcome = some artifact) :
    artifact.opened cursorSchema generation.outcome = opened := by
  rw [Artifact.opened, expand_outcome]
  cases built
  rw [opened, ← expand_outcome]
  rfl

/-- The logs in the query. -/
def logsSite : Site :=
  ⟨⟨some Sample.queryType, pagedList logs PagingArgument.backward⟩, some Sample.queryType⟩

theorem mode?_logsSite :
    logsSite.marking.mode? cursorSchema = some .cursorBackward := by
  rfl

/-- The edges of the logs have hints, for pages that follow. -/
theorem exists_hints :
    ∃ level entry, opened.Hints cursorSchema level ⟨none, "edges"⟩ entry ∧
      entry.updates = [.append, .append] ∧
      BelongsTo (level.leading cursorSchema ⟨none, "edges"⟩) logsSite := by
  have found : ∃ entry recorded inner,
      opened.recorded.entryAt? ⟨none, "logs"⟩ = some entry ∧ entry.type = "Connection" ∧
        entry.selection = some recorded ∧ recorded.entryAt? ⟨none, "edges"⟩ = some inner ∧
        inner.updates = [.append, .append] :=
    ⟨_, _, _, rfl, rfl, rfl, rfl, rfl⟩
  obtain ⟨entry, recorded, inner, isEntry, isConnection, leads, isInner, areAppend⟩ := found
  refine ⟨_, inner, ⟨.inner .root isEntry leads, isInner, ?_⟩, areAppend, .edges ?_ ?_ rfl⟩
  · rw [areAppend]
    exact List.cons_ne_nil _ _
  · rw [isConnection]
    rfl
  · have group : opened.group cursorSchema ⟨none, "logs"⟩ = [logsSite] := by rfl
    rw [group]
    exact List.mem_singleton_self _

end Feed

/-! ## Reports -/

/-- The marked fields of a fragment, as the search meets them. -/
theorem MarkedField.marksOf_fragment (schema : Schema) (fragment : Fragment) :
    marksOf schema (some fragment.condition) fragment.selections =
      (inDefinition schema (.fragment fragment)).map marking :=
  (map_marking_inSelections schema _ [] [] 0 _).symm

/-- How the hints in the artifact of a generated query go with the mode of its wrapper. -/
structure Artifact.HintsFollow (schema : Schema) (query : Document) (artifact : Artifact)
    (wrapper : Fragment) (field : PaginatedField) (mode : PagingMode) : Prop where
  built : build? schema query = some artifact
  /-- The field is the only marked one of the wrapper. -/
  found : PaginatedField.findIn schema (.fragment wrapper) = .ok (some field)
  detected : PagingMode.detect schema field = .ok mode
  all : ∀ level place entry, (artifact.opened schema query).Hints schema level place entry →
    entry.updates = mode.hints (variants query)
  fit : (artifact.opened schema query).HintsFit schema (variants query) ↔
    (artifact.opened schema query).PagesToward schema mode.direction
  alike :
    (∀ fragment ∈ query.inlined, ∀ found ∈ MarkedField.inDefinition schema (.fragment fragment),
      ∃ other, found.marking.mode? schema = some other ∧ other.direction = mode.direction) →
    (artifact.opened schema query).HintsFit schema (variants query)

namespace Pipeline

variable {schema : Schema} {config : IdentityConfig} {document : Document} {identity : Identity}
  {index : FragmentIndex}

/-- The hints in the metadata of a query follow the mode of the fragment it is generated for. -/
theorem exists_hintsFollow_of_generation {passage : Passage schema config document}
    (generation : Generation passage.outcome identity index)
    (known : passage.identity = some identity) :
    ∃ artifact, Artifact.HintsFollow schema generation.outcome artifact
      { generation.fragment with name := generation.wrapper } passage.promotedField
      passage.mode := by
  obtain ⟨_, corresponds⟩ := corresponds_of_generation generation known
  obtain ⟨artifact, built⟩ := generation.exists_artifact passage.hasRoot
  have areHints : (builderOf schema generation.outcome.refetch 2).hints = passage.mode.hints 2 := by
    rw [PagingMode.hints, ← MergeHint.forSpec_eq corresponds.method corresponds.direction]
    rfl
  have isBuilt := Artifact.isBuiltBy_opened built
  have fit := OpenLevel.hintsFit_iff isBuilt areHints
  refine ⟨artifact, ?_⟩
  constructor
  case built => exact built
  case found => exact corresponds.found
  case detected => exact corresponds.detected
  case all => exact fun _ _ _ hints => (OpenLevel.updates_of_hints isBuilt areHints hints).1
  case fit => exact fit
  case alike =>
    intro alike
    -- Any paginated field of the query is its own fragment's or that of a fragment behind it.
    obtain ⟨found, only, _, read⟩ := PaginatedField.findIn_eq_ok_some_iff.mp corresponds.found
    let inlined := generation.outcome.inlined.flatMap fun fragment =>
      (MarkedField.inDefinition schema (.fragment fragment)).map MarkedField.marking
    have marked : (artifact.opened schema generation.outcome).IsMarkedBy schema
        (found.marking :: inlined) := by
      refine generation.isMarkedBy_opened ?_ ?_
      · intro marking own
        have single := MarkedField.marksOf_fragment schema
          { generation.fragment with name := generation.wrapper }
        rw [only] at single
        simp only at single
        rw [single] at own
        exact List.mem_cons.mpr (.inl (List.mem_singleton.mp own))
      · intro fragment among marking inside
        rw [MarkedField.marksOf_fragment] at inside
        exact List.mem_cons_of_mem _ (List.mem_flatMap.mpr ⟨fragment, among, inside⟩)
    refine fit.mpr fun level place entry hints site belongs => ?_
    rcases List.mem_cons.mp (OpenLevel.mem_of_belongsTo marked hints.opens belongs)
      with own | behind
    · exact ⟨passage.mode, own ▸ MarkedField.mode?_marking read corresponds.detected, rfl⟩
    · obtain ⟨fragment, among, inside⟩ := List.mem_flatMap.mp behind
      obtain ⟨other, isFound, same⟩ := List.mem_map.mp inside
      exact same ▸ alike fragment among other isFound

/-- All hints in a generated query, whether of a run or of workers that take turns, are those of the
mode that its own fragment pages in. They fit just where every paginated field that they are given
for pages in the same direction, as it does where no fragment that the query holds pages in another
one. -/
theorem hintsFollow_of_mem_generated {workers : Nat} {batch : List Document} {report : Report}
    (reports : run schema config workers batch = .ok report ∨
      ∃ accounts, MayReport schema config workers batch report accounts) :
    ∀ query ∈ report.generated, ∃ artifact operation wrapper field mode,
      query.definitions =
        .operation operation :: .fragment wrapper :: query.inlined.map Definition.fragment ∧
      Artifact.HintsFollow schema query artifact wrapper field mode := by
  intro query member
  obtain ⟨accounts, reported⟩ := reports.elim exists_mayReport_of_run id
  obtain ⟨document, _, passage, identity, generation, known, _, rfl⟩ :=
    reported.exists_source member
  obtain ⟨artifact, follow⟩ := exists_hintsFollow_of_generation generation known
  exact ⟨artifact, _, _, _, _, generation.definitions_outcome_eq, follow⟩

/-- The query of the users fragment holds a fragment that pages backward. -/
theorem hintsFollow_of_mem_generated_feed :
    ∃ report query, run Feed.cursorSchema .standard 1 Feed.batch = .ok report ∧
      query ∈ report.generated ∧ ∃ artifact operation wrapper field mode,
        query.definitions =
          .operation operation :: .fragment wrapper :: query.inlined.map Definition.fragment ∧
        Artifact.HintsFollow Feed.cursorSchema query artifact wrapper field mode := by
  have hasRoot : Feed.cursorSchema.queryRoot? = some Sample.queryType := by decide
  have result := run_eq hasRoot .standard 1 Feed.batch
  exact ⟨_, _, result, Feed.mem_generated,
    hintsFollow_of_mem_generated (.inl result) _ Feed.mem_generated⟩

/-- Hints need not fit: the list of a fragment that pages backward has the hints of the query's own
fragment, which pages forward. -/
theorem not_forall_hintsFit :
    ¬ ∀ (schema : Schema) (config : IdentityConfig) (workers : Nat) (batch : List Document)
      (report : Report), run schema config workers batch = .ok report →
      ∀ query ∈ report.generated, ∀ artifact, Artifact.build? schema query = some artifact →
        (artifact.opened schema query).HintsFit schema (Artifact.variants query) := by
  intro always
  have hasRoot : Feed.cursorSchema.queryRoot? = some Sample.queryType := by decide
  obtain ⟨artifact, built⟩ := Feed.generation.exists_artifact hasRoot
  have fit := always Feed.cursorSchema .standard 1 Feed.batch _
    (run_eq hasRoot .standard 1 Feed.batch) _ Feed.mem_generated artifact built
  rw [Feed.opened_outcome built] at fit
  obtain ⟨level, entry, hints, areAppend, belongs⟩ := Feed.exists_hints
  obtain ⟨mode, detected, same⟩ := (fit level _ entry hints).2 _ belongs
  rw [Feed.mode?_logsSite, Option.some.injEq] at detected
  rw [areAppend, ← detected] at same
  exact absurd same (by decide)

end Pipeline

end QueryPaging
