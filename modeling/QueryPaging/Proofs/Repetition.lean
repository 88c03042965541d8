import Mathlib.Data.List.Basic
import QueryPaging.Proofs.Batches

/-!
# Running twice

A run on the documents of a report gives the same report, whether or not the refetch specs are kept.
What comes back of a document goes through the first phase as the document did, so the second phase
starts from the same fragments and the same names.
-/

namespace QueryPaging

namespace Document

def withoutRefetch (document : Document) : Document :=
  { document with refetch := none }

/-- Whether the document is as it was collected from its source. -/
def IsCollected (document : Document) : Prop :=
  ∃ source definition, document = ofDefinition source definition

end Document

namespace Pipeline

variable {schema : Schema} {config : IdentityConfig}

/-- What is done to the documents of a report before they are run again: nothing, or their refetch
specs are erased. -/
inductive Preparation where
  | keep
  | erase

/-- A document prepared for another run. -/
def Preparation.apply : Preparation → Document → Document
  | .keep, document => document
  | .erase, document => document.withoutRefetch

@[simp]
theorem Preparation.name_apply (preparation : Preparation) (document : Document) :
    (preparation.apply document).name = document.name := by
  cases preparation <;> rfl

@[simp]
theorem Preparation.isGenerated_apply (preparation : Preparation) (document : Document) :
    (preparation.apply document).isGenerated = document.isGenerated := by
  cases preparation <;> rfl

/-- Documents without a refetch spec have none to erase. -/
theorem Preparation.apply_eq_self (preparation : Preparation) {document : Document}
    (bare : document.refetch = none) :
    preparation.apply document = document := by
  cases preparation with
  | keep => rfl
  | erase =>
      cases document
      cases bare
      rfl

theorem Preparation.exists_refetch (preparation : Preparation) (document : Document) :
    ∃ refetch, preparation.apply document = { document with refetch } := by
  cases preparation with
  | keep => exact ⟨document.refetch, rfl⟩
  | erase => exact ⟨none, rfl⟩

/-- That the first phase does not tell a document from the one it comes back as. -/
structure Returns (schema : Schema) (config : IdentityConfig) (document output : Document) :
    Prop where
  sameDocument :
    (entryOf schema config output).document = (entryOf schema config document).document
  sameIdentity :
    (entryOf schema config output).identity = (entryOf schema config document).identity
  sameDiagnostic :
    diagnostic? (process schema config output) = diagnostic? (process schema config document)

theorem Returns.refl (document : Document) :
    Returns schema config document document :=
  ⟨rfl, rfl, rfl⟩

/-- A document that was made to page returns as itself. -/
theorem returns_outcome {document : Document}
    (passage : Passage schema config document)
    (isProcess : process schema config document =
      .ok (some ⟨document, passage.outcome, passage.identity⟩))
    (preparation : Preparation) :
    Returns schema config document (preparation.apply passage.outcome) := by
  obtain ⟨refetch, prepared⟩ := preparation.exists_refetch passage.outcome
  have again := passage.process_again refetch
  rw [← prepared] at again
  constructor <;> simp [entryOf, again, isProcess, settled, diagnostic?]

/-- What the second phase leaves of a document returns as the document did, and the same outcome
leaves the same of it. -/
theorem returns_concluded {queryRoot : Name}
    (hasRoot : schema.queryRoot? = some queryRoot)
    (config : IdentityConfig) {document : Document}
    (bare : document.refetch = none)
    (preparation : Preparation) (outcome : Option (Except Diagnostic Document)) :
    Returns schema config document
        (preparation.apply (concluded (entryOf schema config document, outcome))) ∧
      concluded (entryOf schema config
          (preparation.apply (concluded (entryOf schema config document, outcome))), outcome) =
        concluded (entryOf schema config document, outcome) := by
  -- Where the document stays as it was written, there is nothing to show.
  have stays : concluded (entryOf schema config document, outcome) = document →
      Returns schema config document
          (preparation.apply (concluded (entryOf schema config document, outcome))) ∧
        concluded (entryOf schema config
            (preparation.apply (concluded (entryOf schema config document, outcome))), outcome) =
          concluded (entryOf schema config document, outcome) := by
    intro same
    rw [same, preparation.apply_eq_self bare]
    exact ⟨Returns.refl document, same⟩
  have phase := firstPhase hasRoot config document
  generalize isProcess : process schema config document = result at phase
  cases phase with
  | untouched unmarked =>
      refine stays ?_
      simp [entryOf, isProcess, settled]
  | failed marked span stage fault early =>
      refine stays ?_
      simp [entryOf, isProcess, settled]
  | paged marked passage =>
      have entry : entryOf schema config document =
          ⟨document, passage.outcome, passage.identity⟩ := by
        simp [entryOf, isProcess, settled]
      match outcome with
      | some (.error diagnostic) =>
          refine stays ?_
          rw [entry]
          rfl
      | none | some (.ok query) =>
          have returns := returns_outcome passage isProcess preparation
          have sameDocument := returns.sameDocument
          rw [entry] at sameDocument
          rw [entry]
          exact ⟨returns, sameDocument⟩

/-! ## The whole batch -/

/-- What comes out of the second phase goes through it once more with the same outcomes. -/
theorem embedAll_again {queryRoot : Name}
    (hasRoot : schema.queryRoot? = some queryRoot)
    (config : IdentityConfig) {documents : List Document}
    (bare : ∀ document ∈ documents, document.refetch = none)
    (preparation : Preparation) (index : FragmentIndex) (registry : NameRegistry) :
    let embedded := embedAll index registry (documents.map (entryOf schema config))
    let again := embedAll index registry
      ((embedded.map fun each => preparation.apply (concluded each)).map (entryOf schema config))
    again.map concluded = embedded.map concluded ∧
      again.filterMap (·.2) = embedded.filterMap (·.2) := by
  induction documents generalizing registry with
  | nil => exact ⟨rfl, rfl⟩
  | cons document documents inductionHypothesis =>
      obtain ⟨returns, sameConclusion⟩ := returns_concluded hasRoot config
        (bare document (by simp)) preparation
        (embedStep index registry (entryOf schema config document)).1
      have sameStep := embedStep_congr index registry returns.sameDocument returns.sameIdentity
      have later := inductionHypothesis
        (fun other member => bare other (List.mem_cons_of_mem document member))
        (embedStep index registry (entryOf schema config document)).2
      simp only [List.map_cons, embedAll, List.filterMap_cons, sameStep, sameConclusion]
      rw [later.1, later.2]
      exact ⟨rfl, rfl⟩

theorem fragmentIndex_congr {left right : List Processed}
    (same : left.map (·.document) = right.map (·.document)) :
    fragmentIndex left = fragmentIndex right := by
  have read : ∀ entries : List Processed, entries.filterMap (·.document.fragment?) =
      (entries.map (·.document)).filterMap Document.fragment? := by
    intro entries
    rw [List.filterMap_map]
    rfl
  rw [fragmentIndex, fragmentIndex, read, read, same]

section Batch

variable {queryRoot : Name} (hasRoot : schema.queryRoot? = some queryRoot)
  (config : IdentityConfig) {documents : List Document}
  (bare : ∀ document ∈ documents, document.refetch = none)
  (preparation : Preparation)

/-- The outputs of a batch, prepared for another run. -/
def prepared (schema : Schema) (config : IdentityConfig) (documents : List Document)
    (preparation : Preparation) : List Document :=
  (embeddedOf schema config documents).map fun each => preparation.apply (concluded each)

include hasRoot bare in
theorem returns_of_mem {each : Embedded}
    (member : each ∈ embeddedOf schema config documents) :
    Returns schema config each.1.authored (preparation.apply (concluded each)) := by
  obtain ⟨among, stands⟩ := stands_of_mem member
  have entry := stands.entry
  have returns := (returns_concluded hasRoot config (bare _ among) preparation each.2).1
  rwa [← entry] at returns

theorem map_name_prepared :
    (prepared schema config documents preparation).map (·.name) = documents.map (·.name) := by
  have inputs := map_authored_embeddedOf schema config documents
  conv => rhs; rw [← inputs]
  rw [prepared, List.map_map, List.map_map]
  refine List.map_congr_left fun each member => ?_
  simpa using (concluded_keeps (stands_of_mem member).2).1

include hasRoot bare

theorem map_document_prepared :
    ((prepared schema config documents preparation).map (entryOf schema config)).map
        (·.document) =
      (documents.map (entryOf schema config)).map (·.document) := by
  have inputs := map_authored_embeddedOf schema config documents
  conv => rhs; rw [← inputs]
  rw [prepared, List.map_map, List.map_map, List.map_map, List.map_map]
  exact List.map_congr_left fun each member =>
    (returns_of_mem hasRoot config bare preparation member).sameDocument

theorem filterMap_diagnostic?_prepared :
    (prepared schema config documents preparation).filterMap
        (fun document => diagnostic? (process schema config document)) =
      documents.filterMap fun document => diagnostic? (process schema config document) := by
  have inputs := map_authored_embeddedOf schema config documents
  conv => rhs; rw [← inputs]
  rw [prepared, List.filterMap_map, List.filterMap_map]
  exact List.filterMap_congr fun each member =>
    (returns_of_mem hasRoot config bare preparation member).sameDiagnostic

/-- The report on the outputs of a batch is the report on the batch. -/
theorem reportOf_prepared :
    reportOf schema config (prepared schema config documents preparation) =
      reportOf schema config documents := by
  have sameIndex := fragmentIndex_congr
    (map_document_prepared hasRoot config bare preparation)
  have sameNames : (prepared schema config documents preparation).map (·.name) =
      documents.map (·.name) := map_name_prepared config preparation
  obtain ⟨sameOutputs, sameOutcomes⟩ := embedAll_again hasRoot config bare preparation
    (fragmentIndex (documents.map (entryOf schema config)))
    (NameRegistry.seeded (documents.map (·.name)))
  have again : embeddedOf schema config (prepared schema config documents preparation) =
      embedAll (fragmentIndex (documents.map (entryOf schema config)))
        (NameRegistry.seeded (documents.map (·.name)))
        ((prepared schema config documents preparation).map (entryOf schema config)) := by
    rw [embeddedOf, sameIndex, sameNames]
  rw [reportOf, reportOf, filterMap_diagnostic?_prepared hasRoot config bare preparation, again]
  simp only [prepared, embeddedOf, sameOutputs, sameOutcomes]

end Batch

/-- What a report holds for another run: its outputs, as its queries are generated anew. -/
theorem authored_reportOf (config : IdentityConfig) (preparation : Preparation)
    {documents : List Document}
    (isAuthored : ∀ document ∈ documents, document.isGenerated = false) :
    authored ((reportOf schema config documents).documents.map preparation.apply) =
      prepared schema config documents preparation := by
  have outputs : (prepared schema config documents preparation).filter (!·.isGenerated) =
      prepared schema config documents preparation := by
    refine List.filter_eq_self.mpr fun output member => ?_
    obtain ⟨each, among, rfl⟩ := List.mem_map.mp member
    obtain ⟨source, stands⟩ := stands_of_mem among
    simp [(concluded_keeps stands).2, isAuthored _ source]
  have queries : ((((embeddedOf schema config documents).filterMap (·.2)).filterMap
      generated?).map preparation.apply).filter (!·.isGenerated) = [] := by
    refine List.filter_eq_nil_iff.mpr fun query member => ?_
    obtain ⟨made, among, rfl⟩ := List.mem_map.mp member
    rw [List.filterMap_filterMap] at among
    obtain ⟨each, inBatch, outcome⟩ := List.mem_filterMap.mp among
    simp [isGenerated_of_outcome (stands_of_mem inBatch).2 outcome]
  rw [authored, reportOf, List.map_append, List.filter_append, queries, List.append_nil,
    List.map_map]
  exact outputs

/-- A run on what a run reports gives the same report: the documents in their order, with their
declarations, refetch specs and queries, and the diagnostics. So does a run on the same documents
without their refetch specs. -/
theorem run_again {queryRoot : Name}
    (hasRoot : schema.queryRoot? = some queryRoot)
    (config : IdentityConfig) {batch : List Document}
    (collected : ∀ document ∈ batch, document.IsCollected) :
    ∃ report, run schema config 1 batch = .ok report ∧
      run schema config 1 report.documents = .ok report ∧
      run schema config 1 (report.documents.map Document.withoutRefetch) = .ok report := by
  have bare : ∀ document ∈ authored batch, document.refetch = none := by
    intro document member
    obtain ⟨source, definition, rfl⟩ := collected document (List.mem_filter.mp member).1
    rfl
  have isAuthored : ∀ document ∈ authored batch, document.isGenerated = false := by
    intro document member
    simpa [authored] using (List.mem_filter.mp member).2
  have again : ∀ preparation : Preparation,
      run schema config 1 ((reportOf schema config (authored batch)).documents.map
        preparation.apply) = .ok (reportOf schema config (authored batch)) := by
    intro preparation
    rw [run_eq hasRoot, authored_reportOf config preparation isAuthored,
      reportOf_prepared hasRoot config bare]
  refine ⟨reportOf schema config (authored batch), run_eq hasRoot config 1 batch, ?_,
    again .erase⟩
  have kept := again .keep
  rwa [show Preparation.keep.apply = id from rfl, List.map_id] at kept

/-- The small batch, in which one document is made to page and one fails, is run again. -/
theorem run_again_sample :
    Sample.schema.queryRoot? = some Sample.queryType ∧
      (∀ document ∈ Sample.batch, document.IsCollected) ∧
      ∃ report, run Sample.schema .standard 1 Sample.batch = .ok report ∧
        run Sample.schema .standard 1 report.documents = .ok report ∧
        run Sample.schema .standard 1 (report.documents.map Document.withoutRefetch) =
          .ok report := by
  have collected : ∀ document ∈ Sample.batch, document.IsCollected := by
    intro document member
    obtain ⟨definition, _, same⟩ := List.mem_map.mp member
    exact ⟨"sample.graphql", definition, same.symm⟩
  have hasRoot : Sample.schema.queryRoot? = some Sample.queryType := by decide
  exact ⟨hasRoot, collected, run_again hasRoot .standard collected⟩

end Pipeline

end QueryPaging
