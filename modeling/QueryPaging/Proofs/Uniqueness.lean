import Mathlib.Data.List.Pairwise
import QueryPaging.Proofs.Claiming
import QueryPaging.Proofs.Sufficiency

/-!
# Unique names

The names that a run makes up are never those of an author. Among themselves they are as many as the
fragments they are made up for: two queries share a name, and two wrappers do, only where the
fragments of the queries do.

- `Pipeline.hasUniqueNames_iff`: the generated names are unique just where no two generated queries
  come from fragments of one name.
-/

namespace QueryPaging

namespace Document

/-- The name of the renamed copy of its fragment that a generated query spreads. -/
def wrapper? (document : Document) : Option String :=
  document.generated.map (·.wrapper)

def origin? (document : Document) : Option String :=
  document.generated.map (·.fragment)

/-- How the names of a generated query come about, given the names that authors took. -/
structure IsNamedFrom (authored : List String) (query : Document) (fragment : String) : Prop where
  origin : query.origin? = some fragment
  name : query.name = paginationQueryName fragment
  wrapper : ∃ parameters, query.wrapper? = some (wrapperName fragment parameters)
  nameApart : query.name ∉ authored
  wrapperApart : ∀ wrapper, query.wrapper? = some wrapper → wrapper ∉ authored

namespace IsNamedFrom

variable {authored : List String} {left right : Document} {first second : String}
  (fromFirst : left.IsNamedFrom authored first) (fromSecond : right.IsNamedFrom authored second)

include fromFirst fromSecond

theorem name_eq_iff :
    left.name = right.name ↔ left.origin? = right.origin? := by
  rw [fromFirst.name, fromSecond.name, paginationQueryName_inj, fromFirst.origin,
    fromSecond.origin, Option.some.injEq]

theorem origin?_eq_of_wrapper?_eq
    (same : left.wrapper? = right.wrapper?) :
    left.origin? = right.origin? := by
  obtain ⟨parameters, isLeft⟩ := fromFirst.wrapper
  obtain ⟨others, isRight⟩ := fromSecond.wrapper
  rw [isLeft, isRight, Option.some.injEq] at same
  rw [fromFirst.origin, fromSecond.origin, eq_of_wrapperName_eq same]

end IsNamedFrom

end Document

/-- That the generated names of a report are unique. -/
structure Report.HasUniqueNames (authored : List String) (report : Report) : Prop where
  queries : (report.generated.map (·.name)).Nodup
  wrappers : (report.generated.map Document.wrapper?).Nodup
  apart : ∀ query ∈ report.generated, query.name ∉ authored ∧
    ∀ wrapper, query.wrapper? = some wrapper → wrapper ∉ authored

namespace Pipeline

/-! ## Authored names stay apart -/

section Way

variable {index : FragmentIndex} {registry : NameRegistry}

theorem keeps_embedStep (index : FragmentIndex) (distinct : registry.IsDistinct)
    (entry : Processed) :
    Embedding.Keeps registry (embedStep index registry entry).2 := by
  cases known : entry.identity with
  | none =>
      rw [embedStep_of_no_identity index registry known]
      exact ⟨distinct, fun _ => Iff.rfl⟩
  | some identity =>
      rw [embedStep_of_identity index registry known, embedOne]
      exact Embedding.keeps_embed entry.document identity index distinct

theorem isNamedFrom_of_embedStep {authored : List String} {entry : Processed} {query : Document}
    (held : ∀ name ∈ authored, registry.get? name = some .authored)
    (made : (embedStep index registry entry).1.bind generated? = some query) :
    ∃ fragment, query.IsNamedFrom authored fragment := by
  cases known : entry.identity with
  | none =>
      rw [embedStep_of_no_identity index registry known] at made
      cases made
  | some identity =>
      rw [embedStep_of_identity index registry known, Option.bind_some, embedOne] at made
      cases result : Embedding.embed entry.document identity index registry with
      | mk document later =>
          cases document with
          | error fault => simp [result, atStage, generated?] at made
          | ok document =>
              simp only [result, atStage, generated?, Option.some.injEq] at made
              subst made
              obtain ⟨generation, rfl, freeQuery, freeWrapper⟩ :=
                Embedding.ne_authored_of_embed result
              refine ⟨generation.fragment.name, rfl,
                Name.require_eq_ok_iff.mp generation.isQuery,
                ⟨_, congrArg some (Name.require_eq_ok_iff.mp generation.isWrapper)⟩, ?_, ?_⟩
              · intro taken
                exact freeQuery (held _ taken)
              · intro wrapper isWrapper taken
                cases isWrapper
                exact freeWrapper (held _ taken)

/-- All queries of a batch are named from their fragments. The induction is on the documents, with
the registry that each of them meets. -/
theorem isNamedFrom_of_mem_embedAll {authored : List String} {entries : List Processed}
    {each : Embedded} {query : Document}
    (distinct : registry.IsDistinct)
    (held : ∀ name ∈ authored, registry.get? name = some .authored)
    (member : each ∈ embedAll index registry entries)
    (made : each.2.bind generated? = some query) :
    ∃ fragment, query.IsNamedFrom authored fragment := by
  induction entries generalizing registry with
  | nil => simp [embedAll] at member
  | cons entry entries inductionHypothesis =>
      rw [embedAll] at member
      rcases List.mem_cons.mp member with rfl | later
      · exact isNamedFrom_of_embedStep held made
      · have kept := keeps_embedStep index distinct entry
        exact inductionHypothesis kept.distinct
          (fun name among => (kept.authored name).mpr (held name among)) later

end Way

theorem isNamedFrom_of_mem_generated {schema : Schema} {config : IdentityConfig}
    {documents : List Document} {query : Document}
    (isAuthored : ∀ document ∈ documents, document.isGenerated = false)
    (member : query ∈ (reportOf schema config documents).generated) :
    ∃ fragment, query.IsNamedFrom (documents.map (·.name)) fragment := by
  obtain ⟨embedded, among, isQuery⟩ := exists_outcome_of_mem isAuthored member
  refine isNamedFrom_of_mem_embedAll (NameRegistry.isDistinct_seeded _) ?_ among isQuery
  intro name taken
  rw [NameRegistry.get?_seeded, if_pos taken]

/-- Labels stay distinct under another labelling that tells no fewer items apart. -/
theorem nodup_map_of_nodup_map {Item Label Other : Type} {items : List Item}
    {label : Item → Label} {other : Item → Other}
    (finer : ∀ left ∈ items, ∀ right ∈ items, other left = other right → label left = label right)
    (distinct : (items.map label).Nodup) :
    (items.map other).Nodup := by
  rw [List.Nodup, List.pairwise_map] at distinct ⊢
  exact distinct.imp_of_mem fun left right different same =>
    different (finer _ left _ right same)

end Pipeline

/-! ## A batch with twins -/

namespace Sample

/-- The page fragment, written twice, around the fragment that it spreads. -/
def twins : List Document :=
  [pageFragment, partFragment, pageFragment].map (Document.ofDefinition "sample.graphql")

/-- Both of the twins get a query, and it is the same one. -/
theorem generated_twins :
    (Pipeline.reportOf schema .standard (Pipeline.authored twins)).generated =
      [generation.outcome, generation.outcome] := by
  let index := Pipeline.fragmentIndex entries
  let registry := NameRegistry.seeded ((Pipeline.authored twins).map (·.name))
  let part : Processed :=
    Pipeline.entryOf schema .standard (Document.ofDefinition "sample.graphql" partFragment)
  have names : (Pipeline.authored twins).map (·.name) = ["Page", "Part", "Page"] := by rfl
  have apart : ∀ name ∈ (Pipeline.authored twins).map (·.name),
      name.toList.take 5 ≠ "Page_".toList := by
    rw [names]
    decide
  obtain ⟨later, embedded⟩ := exists_embed_paged apart
  have first : Pipeline.embedStep index registry paged = (some (.ok generation.outcome), later) :=
    embedStep_paged embedded
  have between : Pipeline.embedStep index later part = (none, later) := by rfl
  have second : Pipeline.embedStep index later paged = (some (.ok generation.outcome), later) :=
    embedStep_paged (Embedding.embed_again embedded)
  have way : Pipeline.embeddedOf schema .standard (Pipeline.authored twins) =
      Pipeline.embedAll index registry [paged, part, paged] := by rfl
  rw [Report.generated, Pipeline.reportOf, way, Pipeline.embedAll, Pipeline.embedAll,
    Pipeline.embedAll, Pipeline.embedAll, first, between, second]
  rfl

end Sample

namespace Pipeline

/-- The generated names of a run are never authored, and they are unique just where no two of the
generated queries come from fragments of one name. -/
theorem hasUniqueNames_iff {schema : Schema} {config : IdentityConfig} {workers : Nat}
    {batch : List Document} {report : Report}
    (result : run schema config workers batch = .ok report) :
    (∀ query ∈ report.generated, query.name ∉ (authored batch).map (·.name) ∧
        ∀ wrapper, query.wrapper? = some wrapper → wrapper ∉ (authored batch).map (·.name)) ∧
      (report.HasUniqueNames ((authored batch).map (·.name)) ↔
        (report.generated.map Document.origin?).Nodup) := by
  have named : ∀ query ∈ report.generated,
      ∃ fragment, query.IsNamedFrom ((authored batch).map (·.name)) fragment := by
    intro query member
    rw [eq_reportOf_of_run result] at member
    exact isNamedFrom_of_mem_generated (fun _ among => isGenerated_of_mem_authored among) member
  have apart : ∀ query ∈ report.generated, query.name ∉ (authored batch).map (·.name) ∧
      ∀ wrapper, query.wrapper? = some wrapper → wrapper ∉ (authored batch).map (·.name) := by
    intro query member
    obtain ⟨fragment, isNamed⟩ := named query member
    exact ⟨isNamed.nameApart, isNamed.wrapperApart⟩
  have sameName : ∀ left ∈ report.generated, ∀ right ∈ report.generated,
      (left.name = right.name ↔ left.origin? = right.origin?) := by
    intro left isLeft right isRight
    obtain ⟨first, fromFirst⟩ := named left isLeft
    obtain ⟨second, fromSecond⟩ := named right isRight
    exact fromFirst.name_eq_iff fromSecond
  have sameWrapper : ∀ left ∈ report.generated, ∀ right ∈ report.generated,
      left.wrapper? = right.wrapper? → left.origin? = right.origin? := by
    intro left isLeft right isRight
    obtain ⟨first, fromFirst⟩ := named left isLeft
    obtain ⟨second, fromSecond⟩ := named right isRight
    exact fromFirst.origin?_eq_of_wrapper?_eq fromSecond
  refine ⟨apart, ?_, ?_⟩
  · intro unique
    exact nodup_map_of_nodup_map
      (fun left isLeft right isRight => (sameName left isLeft right isRight).mpr) unique.queries
  · intro origins
    constructor
    case queries =>
      exact nodup_map_of_nodup_map
        (fun left isLeft right isRight => (sameName left isLeft right isRight).mp) origins
    case wrappers => exact nodup_map_of_nodup_map sameWrapper origins
    case apart => exact apart

/-- The twins get queries of one name. -/
theorem hasUniqueNames_iff_twins :
    ∃ report, run Sample.schema .standard 1 Sample.twins = .ok report ∧
      (∀ query ∈ report.generated, query.name ∉ (authored Sample.twins).map (·.name) ∧
        ∀ wrapper, query.wrapper? = some wrapper →
          wrapper ∉ (authored Sample.twins).map (·.name)) ∧
      (report.HasUniqueNames ((authored Sample.twins).map (·.name)) ↔
        (report.generated.map Document.origin?).Nodup) := by
  have hasRoot : Sample.schema.queryRoot? = some Sample.queryType := by decide
  have result := run_eq hasRoot .standard 1 Sample.twins
  exact ⟨_, result, hasUniqueNames_iff result⟩

/-- Not every run makes up unique names: a fragment that is written twice gets two queries of one
name. -/
theorem not_forall_hasUniqueNames :
    ¬ ∀ (schema : Schema) (config : IdentityConfig) (workers : Nat) (batch : List Document)
      (report : Report), run schema config workers batch = .ok report →
      report.HasUniqueNames ((authored batch).map (·.name)) := by
  intro always
  have hasRoot : Sample.schema.queryRoot? = some Sample.queryType := by decide
  have unique := always Sample.schema .standard 1 Sample.twins _
    (run_eq hasRoot .standard 1 Sample.twins)
  have queries := unique.queries
  rw [Sample.generated_twins] at queries
  simp at queries

end Pipeline

end QueryPaging
