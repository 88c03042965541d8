import QueryPaging.Document.Collecting
import QueryPaging.Proofs.Generation
import QueryPaging.Proofs.Passage
import QueryPaging.Schema.BuiltIn

/-!
# Batches

A run goes through its batch twice, chunk by chunk. Here the two phases are put together as one way
through the batch, on which each document meets its own outcome of the second phase, if it has one.

- `Workers.map_eq` and `Workers.mapShared_eq`: how a batch is divided among workers does not matter.
- `run_eq`: the report of a run in terms of that one way.
-/

namespace QueryPaging

namespace Workers

variable {Item Result State : Type}

/-- Mapping does not depend on the workers. -/
theorem map_eq (workers : Nat) (work : Item → Result) (items : List Item) :
    map workers work items = items.map work := by
  unfold map
  rw [List.flatMap_def, ← List.map_flatten, flatten_split]

theorem workThrough_append (step : State → Item → Result × State) (state : State)
    (initial later : List Item) :
    workThrough step state (initial ++ later) =
      ((workThrough step state initial).1
          ++ (workThrough step (workThrough step state initial).2 later).1,
        (workThrough step (workThrough step state initial).2 later).2) := by
  induction initial generalizing state with
  | nil => rfl
  | cons item items inductionHypothesis =>
      simp [workThrough, inductionHypothesis]

theorem workThroughAll_eq (step : State → Item → Result × State) (state : State)
    (chunks : List (List Item)) :
    workThroughAll step state chunks = workThrough step state chunks.flatten := by
  induction chunks generalizing state with
  | nil => rfl
  | cons chunk later inductionHypothesis =>
      simp [workThroughAll, workThrough_append, inductionHypothesis]

theorem mapShared_eq (workers : Nat) (step : State → Item → Result × State) (state : State)
    (items : List Item) :
    mapShared workers step state items = workThrough step state items := by
  rw [mapShared, workThroughAll_eq, flatten_split]

end Workers

namespace Pipeline

/-! ## The second phase as one way -/

/-- A document after the first phase, with the outcome of its embedding if it has one. -/
abbrev Embedded := Processed × Option (Except Diagnostic Document)

/-- The embedding of one document, if it is a paginated fragment, and the registry afterwards. -/
def embedStep (index : FragmentIndex) (registry : NameRegistry) (entry : Processed) :
    Option (Except Diagnostic Document) × NameRegistry :=
  match entry.identity with
  | none => (none, registry)
  | some identity =>
      (some (embedOne index registry (entry, identity)).1,
        (embedOne index registry (entry, identity)).2)

/-- The documents in order, each with the outcome of its embedding. The registry passes from one
paginated fragment to the next. -/
def embedAll (index : FragmentIndex) : NameRegistry → List Processed → List Embedded
  | _, [] => []
  | registry, entry :: entries =>
      (entry, (embedStep index registry entry).1)
        :: embedAll index (embedStep index registry entry).2 entries

/-- The document that an outcome leaves. -/
def concluded : Embedded → Document
  | (entry, some (.error _)) => entry.authored
  | (entry, _) => entry.document

@[simp]
theorem concluded_untouched (document : Document)
    (outcome : Option (Except Diagnostic Document)) :
    concluded (Processed.untouched document, outcome) = document := by
  match outcome with
  | none => rfl
  | some (.ok query) => rfl
  | some (.error diagnostic) => rfl

section Way

variable (index : FragmentIndex) (registry : NameRegistry)

theorem embedStep_of_identity {entry : Processed} {identity : Identity}
    (known : entry.identity = some identity) :
    embedStep index registry entry =
      (some (embedOne index registry (entry, identity)).1,
        (embedOne index registry (entry, identity)).2) := by
  rw [embedStep, known]

theorem embedStep_of_no_identity {entry : Processed}
    (none : entry.identity = none) :
    embedStep index registry entry = (Option.none, registry) := by
  rw [embedStep, none]

theorem embedStep_of_embed {index : FragmentIndex} {registry later : NameRegistry}
    {entry : Processed} {identity : Identity} {query : Document}
    (known : entry.identity = some identity)
    (embedded : Embedding.embed entry.document identity index registry = (.ok query, later)) :
    embedStep index registry entry = (some (.ok query), later) := by
  rw [embedStep_of_identity index registry known, embedOne]
  simp only [embedded, atStage]

/-- The embedding of a document does not depend on how it was written. -/
theorem embedStep_congr {left right : Processed}
    (sameDocument : left.document = right.document)
    (sameIdentity : left.identity = right.identity) :
    embedStep index registry left = embedStep index registry right := by
  simp only [embedStep, embedOne, sameDocument, sameIdentity]

variable (entries : List Processed)

theorem workThrough_embedOne :
    (Workers.workThrough (embedOne index) registry (embeddable entries)).1 =
      (embedAll index registry entries).filterMap (·.2) := by
  induction entries generalizing registry with
  | nil => rfl
  | cons entry entries inductionHypothesis =>
      rw [embedAll]
      cases known : entry.identity with
      | none =>
          rw [embedStep_of_no_identity index registry known]
          simpa [embeddable, known] using inductionHypothesis registry
      | some identity =>
          have later := inductionHypothesis (embedOne index registry (entry, identity)).2
          simp only [embeddable] at later
          rw [embedStep_of_identity index registry known]
          simp [embeddable, known, Workers.workThrough, later]

theorem finished_eq :
    finished entries ((embedAll index registry entries).filterMap (·.2)) =
      (embedAll index registry entries).map concluded := by
  induction entries generalizing registry with
  | nil => rfl
  | cons entry entries inductionHypothesis =>
      rw [embedAll]
      cases known : entry.identity with
      | none =>
          rw [embedStep_of_no_identity index registry known]
          simp only [List.filterMap_cons, List.map_cons, finished, known, concluded]
          rw [inductionHypothesis]
      | some identity =>
          rw [embedStep_of_identity index registry known]
          cases outcome : (embedOne index registry (entry, identity)).1 <;>
            simp [finished, known, concluded, inductionHypothesis]

@[simp]
theorem map_fst_embedAll :
    (embedAll index registry entries).map (·.1) = entries := by
  induction entries generalizing registry with
  | nil => rfl
  | cons entry entries inductionHypothesis => rw [embedAll, List.map_cons, inductionHypothesis]

theorem exists_embedStep {embedded : Embedded}
    (member : embedded ∈ embedAll index registry entries) :
    embedded.1 ∈ entries ∧ ∃ registry, embedded.2 = (embedStep index registry embedded.1).1 := by
  induction entries generalizing registry with
  | nil => simp [embedAll] at member
  | cons entry entries inductionHypothesis =>
      rw [embedAll] at member
      rcases List.mem_cons.mp member with rfl | later
      · exact ⟨by simp, registry, rfl⟩
      · exact (inductionHypothesis _ later).imp_left (List.mem_cons_of_mem entry)

end Way

/-! ## The run -/

/-- A document after the first phase. -/
def entryOf (schema : Schema) (config : IdentityConfig) (document : Document) : Processed :=
  settled document (process schema config document)

/-- The first phase keeps what was written, and what the document is called. -/
theorem entryOf_keeps (schema : Schema) (config : IdentityConfig) (document : Document) :
    (entryOf schema config document).authored = document ∧
      (entryOf schema config document).document.name = document.name ∧
      (entryOf schema config document).document.source = document.source ∧
      (entryOf schema config document).document.generated = document.generated := by
  unfold entryOf
  cases result : process schema config document with
  | error diagnostic => exact ⟨rfl, rfl, rfl, rfl⟩
  | ok processed? =>
      cases processed? with
      | none => exact ⟨rfl, rfl, rfl, rfl⟩
      | some processed =>
          obtain ⟨passage, rfl⟩ := process_eq_ok_some_iff.mp result
          exact ⟨rfl, passage.name_outcome, passage.source_outcome, passage.generated_outcome⟩

/-- A document that comes with an identity went along a passage. -/
theorem exists_passage_of_identity {schema : Schema} {config : IdentityConfig}
    {document : Document} {identity : Identity}
    (known : (entryOf schema config document).identity = some identity) :
    ∃ passage : Passage schema config document,
      entryOf schema config document = ⟨document, passage.outcome, passage.identity⟩ := by
  unfold entryOf settled at known ⊢
  split at known
  · next result => exact process_eq_ok_some_iff.mp result
  · cases known

/-- The batch on its way through the second phase. -/
def embeddedOf (schema : Schema) (config : IdentityConfig) (documents : List Document) :
    List Embedded :=
  let entries := documents.map (entryOf schema config)
  embedAll (fragmentIndex entries) (NameRegistry.seeded (documents.map (·.name))) entries

/-- What is known of a document after the second phase. -/
structure Stands (schema : Schema) (config : IdentityConfig) (index : FragmentIndex)
    (embedded : Embedded) : Prop where
  entry : embedded.1 = entryOf schema config embedded.1.authored
  /-- Only paginated fragments have an outcome, and it is the one of their embedding. -/
  outcome : embedded.1.identity = none ∧ embedded.2 = none ∨
    ∃ identity registry, embedded.1.identity = some identity ∧
      embedded.2 = some (embedOne index registry (embedded.1, identity)).1

theorem stands_of_mem {schema : Schema} {config : IdentityConfig} {documents : List Document}
    {embedded : Embedded}
    (member : embedded ∈ embeddedOf schema config documents) :
    embedded.1.authored ∈ documents ∧
      Stands schema config (fragmentIndex (documents.map (entryOf schema config))) embedded := by
  obtain ⟨among, registry, outcome⟩ := exists_embedStep _ _ _ member
  obtain ⟨document, isAuthored, entry⟩ := List.mem_map.mp among
  have same : embedded.1.authored = document := by
    rw [← entry, (entryOf_keeps schema config document).1]
  refine ⟨by rwa [same], by rw [same, entry], ?_⟩
  cases known : embedded.1.identity with
  | none =>
      rw [embedStep_of_no_identity _ _ known] at outcome
      exact Or.inl ⟨rfl, outcome⟩
  | some identity =>
      rw [embedStep_of_identity _ _ known] at outcome
      exact Or.inr ⟨identity, registry, rfl, outcome⟩

section Outcome

variable {schema : Schema} {config : IdentityConfig} {index : FragmentIndex}
  {embedded : Embedded}
  (stands : Stands schema config index embedded)

include stands

/-- An output has the name of its document, and is not generated if that was not. -/
theorem concluded_keeps :
    (concluded embedded).name = embedded.1.authored.name ∧
      (concluded embedded).isGenerated = embedded.1.authored.isGenerated := by
  obtain ⟨_, sameName, _, sameProvenance⟩ :=
    entryOf_keeps schema config embedded.1.authored
  rw [← stands.entry] at sameName sameProvenance
  unfold concluded
  split
  · exact ⟨rfl, rfl⟩
  · exact ⟨sameName, congrArg Option.isSome sameProvenance⟩

/-- A query that an outcome gives was generated from what a passage made of its document. -/
theorem exists_generation_of_outcome {query : Document}
    (made : embedded.2.bind generated? = some query) :
    ∃ (passage : Passage schema config embedded.1.authored) (identity : Identity)
      (generation : Generation passage.outcome identity index),
      passage.identity = some identity ∧ query = generation.outcome := by
  rcases stands.outcome with ⟨_, none⟩ | ⟨identity, registry, known, outcome⟩
  · rw [none] at made
    cases made
  rw [stands.entry] at known
  obtain ⟨passage, entry⟩ := exists_passage_of_identity known
  rw [← stands.entry] at known entry
  have sameDocument := congrArg Processed.document entry
  have sameIdentity := congrArg Processed.identity entry
  rw [outcome, Option.bind_some, embedOne, sameDocument] at made
  cases result : Embedding.embed passage.outcome identity index registry with
  | mk document later =>
      cases document with
      | error fault => simp [result, atStage, generated?] at made
      | ok document =>
          obtain ⟨generation, rfl⟩ := Embedding.exists_generation_of_embed result
          simp only [result, atStage, generated?, Option.some.injEq] at made
          exact ⟨passage, identity, generation, sameIdentity.symm.trans known, made.symm⟩

theorem isGenerated_of_outcome {query : Document}
    (made : embedded.2.bind generated? = some query) :
    query.isGenerated = true := by
  obtain ⟨passage, identity, generation, _, rfl⟩ := exists_generation_of_outcome stands made
  rfl

end Outcome

/-- The documents that outcomes are about. -/
theorem map_authored_embeddedOf (schema : Schema) (config : IdentityConfig)
    (documents : List Document) :
    (embeddedOf schema config documents).map (·.1.authored) = documents := by
  have same : (embeddedOf schema config documents).map (·.1) =
      documents.map (entryOf schema config) := map_fst_embedAll ..
  calc (embeddedOf schema config documents).map (·.1.authored)
      = ((embeddedOf schema config documents).map (·.1)).map (·.authored) :=
          (List.map_map ..).symm
    _ = documents.map ((·.authored) ∘ entryOf schema config) := by rw [same, List.map_map]
    _ = documents.map id :=
          List.map_congr_left fun document _ => (entryOf_keeps schema config document).1
    _ = documents := List.map_id _

/-- The report in terms of the way of a batch through the second phase. -/
def reportOf (schema : Schema) (config : IdentityConfig) (documents : List Document) : Report :=
  let embedded := embeddedOf schema config documents
  { documents := embedded.map concluded ++ (embedded.filterMap (·.2)).filterMap generated?
    diagnostics :=
      documents.filterMap (fun document => diagnostic? (process schema config document))
        ++ (embedded.filterMap (·.2)).filterMap diagnostic? }

/-- The documents of a batch after the first phase. -/
theorem zipWith_settled (schema : Schema) (config : IdentityConfig) (documents : List Document) :
    documents.zipWith settled (documents.map (process schema config)) =
      documents.map (entryOf schema config) := by
  rw [List.zipWith_map_right, List.zipWith_self]
  rfl

/-- A run reports on the authored documents of its batch. -/
theorem run_eq {schema : Schema} {queryRoot : Name}
    (hasRoot : schema.queryRoot? = some queryRoot)
    (config : IdentityConfig) (workers : Nat) (documents : List Document) :
    run schema config workers documents =
      .ok (reportOf schema config (authored documents)) := by
  simp only [run, hasRoot, Workers.map_eq, reportOn, zipWith_settled, Workers.mapShared_eq,
    workThrough_embedOne, finished_eq, reportOf, embeddedOf, List.filterMap_map]
  rfl

theorem eq_reportOf_of_run {schema : Schema} {config : IdentityConfig} {workers : Nat}
    {documents : List Document} {report : Report}
    (result : run schema config workers documents = .ok report) :
    report = reportOf schema config (authored documents) := by
  cases hasRoot : schema.queryRoot? with
  | none => simp [run, hasRoot] at result
  | some queryRoot =>
      rw [run_eq hasRoot] at result
      exact (Except.ok.inj result).symm

theorem isGenerated_of_mem_authored {documents : List Document} {document : Document}
    (member : document ∈ authored documents) :
    document.isGenerated = false := by
  simpa [authored] using (List.mem_filter.mp member).2

section Queries

variable {schema : Schema} {config : IdentityConfig} {documents : List Document}
  {query : Document}
  (isAuthored : ∀ document ∈ documents, document.isGenerated = false)
  (member : query ∈ (reportOf schema config documents).generated)

include isAuthored member

/-- Every query that a run generates is the outcome of an embedding. -/
theorem exists_outcome_of_mem :
    ∃ embedded ∈ embeddedOf schema config documents, embedded.2.bind generated? = some query := by
  obtain ⟨reported, isGenerated⟩ := List.mem_filter.mp member
  rcases List.mem_append.mp reported with output | made
  · obtain ⟨embedded, among, rfl⟩ := List.mem_map.mp output
    obtain ⟨input, stands⟩ := stands_of_mem among
    rw [(concluded_keeps stands).2, isAuthored _ input] at isGenerated
    cases isGenerated
  · rw [List.filterMap_filterMap] at made
    exact List.mem_filterMap.mp made

/-- Every query that a run generates comes from an authored document. -/
theorem exists_generation_of_mem :
    ∃ document ∈ documents, ∃ (passage : Passage schema config document) (identity : Identity)
      (generation : Generation passage.outcome identity
        (fragmentIndex (documents.map (entryOf schema config)))),
      passage.identity = some identity ∧ query = generation.outcome := by
  obtain ⟨embedded, among, gives⟩ := exists_outcome_of_mem isAuthored member
  obtain ⟨input, stands⟩ := stands_of_mem among
  exact ⟨embedded.1.authored, input, exists_generation_of_outcome stands gives⟩

end Queries

end Pipeline

/-! ## A small batch -/

namespace Sample

def queryType : Name := ⟨"Query", by decide⟩
def items : Name := ⟨"items", by decide⟩
def page : Name := ⟨"Page", by decide⟩
def part : Name := ⟨"Part", by decide⟩
def twice : Name := ⟨"Twice", by decide⟩
def size : Name := ⟨"size", by decide⟩
def rest : Name := ⟨"rest", by decide⟩

/-- A schema whose queries answer a list of texts. -/
def schema : Schema where
  types := Schema.BuiltIn.types ++
    [⟨queryType, .object []
      [⟨items,
        PagingArgument.offsets.map fun argument =>
          ⟨argument.name, .named Name.intType false, none⟩,
        .list (.named Name.stringType false) false⟩]⟩]
  roots := [⟨.query, queryType⟩]
  directives := []

def itemsField (aliasName : Option Name) (limit : Value) (directives : List Directive) :
    Selection :=
  .field ⟨aliasName, items, [⟨PagingArgument.limit.name, limit⟩], directives, [], none⟩

def mark : Directive :=
  ⟨PassDirective.paginateName, []⟩

/-- A fragment that pages through the list and spreads another with a value for its parameter. -/
def pageFragment : Definition :=
  .fragment ⟨page, queryType, [],
    [itemsField none (.int "10") [mark],
      .spread ⟨part, [⟨PassDirective.withName, [⟨size, .int "5"⟩]⟩]⟩], none⟩

def partBody : Fragment :=
  ⟨part, queryType,
    [PassDirective.encodeArguments [⟨size, .named Name.intType false, none⟩]],
    [itemsField (some rest) (.reference size) []], none⟩

def partFragment : Definition :=
  .fragment partBody

/-- An operation that cannot be made to page, as two of its fields are marked. -/
def twiceOperation : Definition :=
  .operation ⟨.query, some twice, [], [],
    [itemsField none (.int "1") [mark], itemsField (some rest) (.int "2") [mark]], none⟩

/-- A batch in which one document is made to page, one is left alone and one fails. -/
def batch : List Document :=
  [pageFragment, partFragment, twiceOperation].map (Document.ofDefinition "sample.graphql")

end Sample

end QueryPaging
