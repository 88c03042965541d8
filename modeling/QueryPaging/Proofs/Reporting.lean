import QueryPaging.Proofs.Accounting
import QueryPaging.Proofs.Disputes
import QueryPaging.Proofs.Scheduling

/-!
# What a run may report

The workers of the second phase may come to different reports as they take turns. Each of these is
covered by accounts, one for each authored document, and one of them is the report of the run in
which the workers take their turns in order.

- `MayReport.exists_comesFrom`: what any turns lead to comes from the authored documents.
- `exists_mayReport_of_run`: a run is one way of taking turns.
- `exists_accounts`: every report accounts for all documents.
-/

namespace QueryPaging

namespace Interleaving

open Pipeline

variable {index : FragmentIndex}

/-! ## Workers in order -/

namespace Crew

variable {crew next : Crew}

theorem Step.frame (before after : List Worker)
    (step : Step index crew next) :
    Step index ⟨before ++ crew.workers ++ after, crew.registry⟩
      ⟨before ++ next.workers ++ after, next.registry⟩ := by
  obtain ⟨moves⟩ := step
  rename_i earlier others worker moved registry later
  have whole : Step index ⟨(before ++ earlier) ++ worker :: (others ++ after), registry⟩
      ⟨(before ++ earlier) ++ moved :: (others ++ after), later⟩ := .turn moves
  simpa using whole

theorem Reaches.frame (before after : List Worker)
    (reaches : Reaches index crew next) :
    Reaches index ⟨before ++ crew.workers ++ after, crew.registry⟩
      ⟨before ++ next.workers ++ after, next.registry⟩ :=
  Relation.ReflTransGen.lift
    (fun crew : Crew => Crew.mk (before ++ crew.workers ++ after) crew.registry)
    (fun _ _ step => Step.frame before after step) _ _ reaches

end Crew

/-- A worker that has worked through what waits for it, and the registry afterwards. -/
def Worker.worked (index : FragmentIndex) (registry : NameRegistry) (worker : Worker) :
    Worker × NameRegistry :=
  (⟨worker.finished
      ++ worker.waiting.zip (Workers.workThrough (embedOne index) registry worker.waiting).1,
    none, []⟩, (Workers.workThrough (embedOne index) registry worker.waiting).2)

theorem Worker.worked_of_isDone {worker : Worker} (registry : NameRegistry)
    (isDone : worker.IsDone) :
    worker.worked index registry = (worker, registry) := by
  obtain ⟨finished, task, waiting⟩ := worker
  obtain ⟨rfl, rfl⟩ := isDone
  simp [worked, Workers.workThrough]

/-- Workers that have nothing in their hands may finish one after the other. -/
theorem Crew.reaches_worked {workers : List Worker} (registry : NameRegistry)
    (empty : ∀ worker ∈ workers, worker.task = none) :
    Reaches index ⟨workers, registry⟩
      ⟨(Workers.workThrough (Worker.worked index) registry workers).1,
        (Workers.workThrough (Worker.worked index) registry workers).2⟩ := by
  induction workers generalizing registry with
  | nil => exact .refl
  | cons worker others inductionHypothesis =>
      obtain ⟨finished, task, waiting⟩ := worker
      have isEmpty : task = none := empty _ List.mem_cons_self
      subst isEmpty
      -- The first finishes while the others wait, and they start from the registry that it leaves.
      have first := (reaches_workThrough index waiting finished registry).frame [] others
      have behind := inductionHypothesis
        (Workers.workThrough (embedOne index) registry waiting).2
        fun other member => empty other (List.mem_cons_of_mem _ member)
      have rest := behind.frame
        [(Worker.worked index registry ⟨finished, none, waiting⟩).1] []
      simp only [List.append_nil] at rest
      exact first.trans rest

theorem Crew.isDone_worked (workers : List Worker) (registry later : NameRegistry) :
    IsDone ⟨(Workers.workThrough (Worker.worked index) registry workers).1, later⟩ := by
  induction workers generalizing registry with
  | nil =>
      intro worker member
      cases member
  | cons first others inductionHypothesis =>
      intro worker member
      rcases List.mem_cons.mp member with rfl | behind
      · exact ⟨rfl, rfl⟩
      · exact inductionHypothesis _ worker behind

/-- What was finished before is not among the outcomes of workers that start. -/
theorem flatMap_worked_start (registry : NameRegistry) (chunks : List (List Item)) :
    ((Workers.workThrough (Worker.worked index) registry (chunks.map Worker.start)).1.flatMap
        fun worker => worker.finished.map (·.2)) =
      (Workers.workThrough (embedOne index) registry chunks.flatten).1 := by
  induction chunks generalizing registry with
  | nil => rfl
  | cons chunk others inductionHypothesis =>
      have lengths := Workers.length_workThrough (embedOne index) registry chunk
      rw [List.flatten_cons, Workers.workThrough_append]
      simp only [List.map_cons, Workers.workThrough, List.flatMap_cons, Worker.worked,
        Worker.start, List.nil_append]
      rw [List.map_snd_zip (by omega)]
      exact congrArg _ (inductionHypothesis _)

end Interleaving

namespace Pipeline

open Interleaving

/-! ## Outcomes and documents -/

/-- The documents of a batch after the first phase, each with its outcome, where the outcomes of the
paginated fragments are given in order. -/
def assigned : List Processed → List Outcome → List Embedded
  | [], _ => []
  | entry :: entries, outcomes =>
      match entry.identity, outcomes with
      | some _, outcome :: later => (entry, some outcome) :: assigned entries later
      | some _, [] => (entry, none) :: assigned entries []
      | none, _ => (entry, none) :: assigned entries outcomes

section Assigned

variable (entries : List Processed) (outcomes : List Outcome)

@[simp]
theorem map_fst_assigned :
    (assigned entries outcomes).map (·.1) = entries := by
  fun_induction assigned entries outcomes with
  | case1 => rfl
  | case2 entry entries identity outcome later known inductionHypothesis =>
      rw [List.map_cons, inductionHypothesis]
  | case3 entry entries identity known inductionHypothesis =>
      rw [List.map_cons, inductionHypothesis]
  | case4 entry entries outcomes known inductionHypothesis =>
      rw [List.map_cons, inductionHypothesis]

theorem finished_eq_assigned :
    finished entries outcomes = (assigned entries outcomes).map concluded := by
  fun_induction assigned entries outcomes with
  | case1 => rfl
  | case2 entry entries identity outcome later known inductionHypothesis =>
      cases outcome <;> simp [finished, known, concluded, inductionHypothesis]
  | case3 entry entries identity known inductionHypothesis =>
      simp [finished, known, concluded, inductionHypothesis]
  | case4 entry entries outcomes known inductionHypothesis =>
      simp [finished, known, concluded, inductionHypothesis]

theorem filterMap_assigned
    (lengths : outcomes.length = (embeddable entries).length) :
    (assigned entries outcomes).filterMap (·.2) = outcomes := by
  fun_induction assigned entries outcomes with
  | case1 => exact (List.eq_nil_of_length_eq_zero lengths).symm
  | case2 entry entries identity outcome later known inductionHypothesis =>
      simp only [embeddable, List.filterMap_cons, known, Option.map_some, List.length_cons,
        Nat.add_right_cancel_iff] at lengths
      rw [List.filterMap_cons]
      exact congrArg (outcome :: ·) (inductionHypothesis lengths)
  | case3 entry entries identity known inductionHypothesis =>
      simp [embeddable, known] at lengths
  | case4 entry entries outcomes known inductionHypothesis =>
      simp only [embeddable, List.filterMap_cons, known, Option.map_none] at lengths
      rw [List.filterMap_cons_none rfl, inductionHypothesis lengths]

variable {entries outcomes} {results : List (Item × Outcome)}

theorem mem_of_mem_assigned {embedded : Embedded}
    (member : embedded ∈ assigned entries outcomes) :
    embedded.1 ∈ entries := by
  rw [← map_fst_assigned entries outcomes]
  exact List.mem_map_of_mem member

theorem exists_of_mem_finished {document : Document}
    (member : document ∈ finished entries outcomes) :
    ∃ entry ∈ entries, document = entry.authored ∨ document = entry.document := by
  rw [finished_eq_assigned] at member
  obtain ⟨embedded, among, rfl⟩ := List.mem_map.mp member
  refine ⟨embedded.1, mem_of_mem_assigned among, ?_⟩
  unfold concluded
  split
  · exact Or.inl rfl
  · exact Or.inr rfl

/-- Just the paginated fragments have an outcome, and it is their own. -/
theorem exists_of_mem_assigned {embedded : Embedded}
    (items : results.map (·.1) = embeddable entries)
    (member : embedded ∈ assigned entries (results.map (·.2))) :
    embedded.1.identity = none ∧ embedded.2 = none ∨
      ∃ identity outcome, embedded.1.identity = some identity ∧ embedded.2 = some outcome ∧
        ((embedded.1, identity), outcome) ∈ results := by
  induction entries generalizing results with
  | nil => cases member
  | cons entry entries inductionHypothesis =>
      cases known : entry.identity with
      | none =>
          simp only [embeddable, List.filterMap_cons, known, Option.map_none] at items
          simp only [assigned, known, List.mem_cons] at member
          rcases member with rfl | behind
          · exact Or.inl ⟨known, rfl⟩
          · exact inductionHypothesis items behind
      | some identity =>
          simp only [embeddable, List.filterMap_cons, known, Option.map_some] at items
          obtain ⟨⟨item, outcome⟩, later, rfl, rfl, others⟩ := List.map_eq_cons_iff.mp items
          simp only [assigned, known, List.map_cons, List.mem_cons] at member
          rcases member with rfl | behind
          · exact Or.inr ⟨identity, outcome, known, rfl, List.mem_cons_self⟩
          · rcases inductionHypothesis others behind with untouched | ⟨other, made, isOther⟩
            · exact Or.inl untouched
            · exact Or.inr ⟨other, made, isOther.imp id
                fun rest => rest.imp id (List.mem_cons_of_mem _)⟩

end Assigned

/-! ## Reports -/

section Reports

variable (schema : Schema) (config : IdentityConfig)

/-- The accounts of some documents whose outcomes of the second phase are given. -/
def accountsFrom (documents : List Document) (outcomes : List Outcome) : List Account :=
  (assigned (documents.map (entryOf schema config)) outcomes).map (accountOf schema config)

/-- Whether workers may come to a report with some accounts, taking turns in some way. -/
def MayReport (workers : Nat) (batch : List Document) (report : Report)
    (accounts : List Account) : Prop :=
  ∃ crew, MayStand schema config (authored batch) workers crew ∧ crew.IsDone ∧
    report = reportFrom schema config (authored batch) crew.outcomes ∧
    accounts = accountsFrom schema config (authored batch) crew.outcomes

variable {schema config} {documents : List Document} {workers : Nat} {crew : Crew}

theorem results_of_done
    (stands : MayStand schema config documents workers crew)
    (isDone : crew.IsDone) :
    crew.results.map (·.1) = paginated schema config documents ∧
      ∀ each ∈ crew.results, OutcomeStands (indexOf schema config documents)
        (documents.map (·.name)) (paginated schema config documents) each := by
  have whole := Workers.flatten_split workers (paginated schema config documents)
  constructor
  · rw [Crew.map_fst_results isDone, Crew.Reaches.map_share_eq stands, crewOf,
      Crew.map_share_start, whole]
  · intro each member
    exact outcomeStands_of_mem_results whole stands member

/-- The generated documents of a report are the queries that came out. -/
theorem exists_result_of_mem_generated {query : Document}
    (isAuthored : ∀ document ∈ documents, document.isGenerated = false)
    (member : query ∈ (reportFrom schema config documents crew.outcomes).generated) :
    ∃ item, (item, .ok query) ∈ crew.results := by
  obtain ⟨reported, isGenerated⟩ := List.mem_filter.mp member
  rcases List.mem_append.mp reported with output | made
  · obtain ⟨entry, isEntry, isOutput⟩ := exists_of_mem_finished output
    obtain ⟨document, isDocument, rfl⟩ := List.mem_map.mp isEntry
    obtain ⟨sameAuthored, _, _, sameProvenance⟩ := entryOf_keeps schema config document
    have unmade := isAuthored document isDocument
    rcases isOutput with rfl | rfl
    · rw [sameAuthored, unmade] at isGenerated
      cases isGenerated
    · rw [Document.isGenerated, sameProvenance, ← Document.isGenerated, unmade] at isGenerated
      cases isGenerated
  · obtain ⟨outcome, isOutcome, isQuery⟩ := List.mem_filterMap.mp made
    rw [← Crew.map_snd_results] at isOutcome
    obtain ⟨⟨item, result⟩, isResult, rfl⟩ := List.mem_map.mp isOutcome
    cases result with
    | error diagnostic => cases isQuery
    | ok document =>
        cases isQuery
        exact ⟨item, isResult⟩

/-- Workers that take their turns in order come to what a single one does. -/
theorem exists_mayStand_inOrder (schema : Schema) (config : IdentityConfig)
    (documents : List Document) (workers : Nat) :
    ∃ crew, MayStand schema config documents workers crew ∧ crew.IsDone ∧
      crew.outcomes = (sequential schema config documents).1 := by
  let chunks := Workers.split workers (paginated schema config documents)
  let registry := NameRegistry.seeded (documents.map (·.name))
  have empty : ∀ worker ∈ chunks.map Worker.start, worker.task = none := by
    intro worker member
    obtain ⟨chunk, _, rfl⟩ := List.mem_map.mp member
    rfl
  refine ⟨_, Crew.reaches_worked registry empty, Crew.isDone_worked _ _ _, ?_⟩
  have outcomes := @flatMap_worked_start (indexOf schema config documents) registry chunks
  rw [Workers.flatten_split] at outcomes
  rw [sequential, Workers.mapShared_eq]
  exact outcomes

theorem reportFrom_of_run {batch : List Document} {report : Report}
    (result : run schema config workers batch = .ok report) :
    report = reportFrom schema config (authored batch)
      (sequential schema config (authored batch)).1 := by
  cases hasRoot : schema.queryRoot? with
  | none => simp [run, hasRoot] at result
  | some queryRoot =>
      simp only [run, hasRoot, Except.ok.injEq] at result
      rw [← result, reportFrom_sequential, Workers.map_eq, Workers.map_eq]
      simp only [reportOn, Workers.mapShared_eq]

theorem exists_mayReport_of_run {batch : List Document} {report : Report}
    (result : run schema config workers batch = .ok report) :
    ∃ accounts, MayReport schema config workers batch report accounts := by
  obtain ⟨crew, stands, isDone, outcomes⟩ :=
    exists_mayStand_inOrder schema config (authored batch) workers
  refine ⟨_, crew, stands, isDone, ?_, rfl⟩
  rw [outcomes, reportFrom_of_run result]

/-- Each document stands as its embedding left it, wherever its name was taken. -/
theorem stands_of_mem_assigned {each : Embedded}
    (stands : MayStand schema config documents workers crew)
    (isDone : crew.IsDone)
    (member : each ∈ assigned (documents.map (entryOf schema config)) crew.outcomes) :
    Stands schema config (indexOf schema config documents) each := by
  obtain ⟨items, outcomes⟩ := results_of_done stands isDone
  obtain ⟨document, _, same⟩ := List.mem_map.mp (mem_of_mem_assigned member)
  constructor
  case entry => rw [← same, (entryOf_keeps schema config document).1]
  case outcome =>
    rw [← Crew.map_snd_results] at member
    refine (exists_of_mem_assigned items member).imp_right ?_
    rintro ⟨identity, outcome, known, made, among⟩
    obtain ⟨names, isAlone⟩ := (outcomes _ among).somewhere
    exact ⟨identity, NameRegistry.seeded names, known, made.trans (congrArg some isAlone)⟩

/-- What any turns lead to comes from the authored documents. -/
theorem MayReport.exists_comesFrom {batch : List Document} {report : Report}
    {accounts : List Account}
    (reported : MayReport schema config workers batch report accounts) :
    ∃ embedded, ComesFrom schema config batch report embedded ∧
      accounts = embedded.map (accountOf schema config) := by
  obtain ⟨crew, stands, isDone, rfl, rfl⟩ := reported
  have items := (results_of_done stands isDone).1
  have lengths : crew.outcomes.length =
      (embeddable ((authored batch).map (entryOf schema config))).length := by
    rw [← Crew.map_snd_results, List.length_map, ← List.length_map (·.1), items]
    rfl
  refine ⟨assigned ((authored batch).map (entryOf schema config)) crew.outcomes, ?_, rfl⟩
  have outcomes := filterMap_assigned _ _ lengths
  constructor
  case inputs =>
    have entries := congrArg (List.map Processed.authored)
      (map_fst_assigned ((authored batch).map (entryOf schema config)) crew.outcomes)
    rw [List.map_map, List.map_map] at entries
    refine entries.trans ((List.map_congr_left fun document _ => ?_).trans (List.map_id _))
    exact (entryOf_keeps schema config document).1
  case stands => exact ⟨_, fun each member => stands_of_mem_assigned stands isDone member⟩
  case documents => rw [outcomes, reportFrom, finished_eq_assigned]
  case diagnostics => rw [outcomes, reportFrom]

/-- The accounts of a report cover it, whatever turns were taken. -/
theorem MayReport.isCoveredBy {queryRoot : Name} {batch : List Document} {report : Report}
    {accounts : List Account}
    (hasRoot : schema.queryRoot? = some queryRoot)
    (reported : MayReport schema config workers batch report accounts) :
    report.IsCoveredBy schema config batch accounts := by
  obtain ⟨embedded, comes, rfl⟩ := reported.exists_comesFrom
  exact comes.isCoveredBy hasRoot

/-- Each generated query of a report was generated, and no author took the name of its wrapper. -/
theorem MayReport.exists_generation {batch : List Document} {report : Report}
    {accounts : List Account} {query : Document}
    (reported : MayReport schema config workers batch report accounts)
    (member : query ∈ report.generated) :
    ∃ (document : Document) (identity : Identity)
      (generation : Generation document identity (indexOf schema config (authored batch))),
      query = generation.outcome ∧
        generation.wrapper.text ∉ (authored batch).map (·.name) := by
  obtain ⟨crew, stands, _, rfl, rfl⟩ := reported
  obtain ⟨item, result⟩ :=
    exists_result_of_mem_generated (fun _ => isGenerated_of_mem_authored) member
  obtain ⟨embedding, made, free, isQuery⟩ :=
    isIssued_of_mem_results (Workers.flatten_split workers _) stands result query rfl
  obtain ⟨generation, rfl⟩ := Embedding.generate_eq_ok_iff.mp made
  exact ⟨_, _, generation, isQuery.symm, free.wrapper⟩

/-- That a report holds what is in an account, and the output at some place. -/
structure IsListed (report : Report) (place : Nat) (account : Account) : Prop where
  output : report.documents[place]? = some account.output
  diagnostics : account.diagnostics ⊆ report.diagnostics
  queries : account.queries ⊆ report.documents

theorem MayReport.isListed {batch : List Document} {report : Report} {accounts : List Account}
    {place : Nat} {account : Account}
    (reported : MayReport schema config workers batch report accounts)
    (found : accounts[place]? = some account) :
    IsListed report place account := by
  obtain ⟨embedded, comes, rfl⟩ := reported.exists_comesFrom
  have member := List.mem_of_getElem? found
  constructor
  case output =>
    have bound : place < ((embedded.map (accountOf schema config)).map (·.output)).length := by
      rw [List.length_map]
      exact (List.getElem?_eq_some_iff.mp found).1
    rw [comes.documents_eq, List.getElem?_append_left bound, List.getElem?_map, found]
    rfl
  case diagnostics =>
    intro diagnostic among
    rw [comes.perm_diagnostics.mem_iff]
    exact List.mem_flatMap.mpr ⟨account, member, among⟩
  case queries =>
    intro query among
    rw [comes.documents_eq]
    exact List.mem_append_right _ (List.mem_flatMap.mpr ⟨account, member, among⟩)

end Reports

/-! ## Accounting for all documents -/

/-- On a schema with a query root there is a report, and every report, whether of a run or of
workers that take turns, accounts for all authored documents of its batch. -/
theorem exists_accounts {schema : Schema} {queryRoot : Name}
    (hasRoot : schema.queryRoot? = some queryRoot)
    (config : IdentityConfig) (workers : Nat) (batch : List Document) :
    (∃ report, run schema config workers batch = .ok report) ∧
      ∀ report,
        (run schema config workers batch = .ok report ∨
          ∃ accounts, MayReport schema config workers batch report accounts) →
        ∃ accounts, report.IsCoveredBy schema config batch accounts := by
  refine ⟨⟨_, run_eq hasRoot config workers batch⟩, fun report reports => ?_⟩
  obtain ⟨accounts, reported⟩ := reports.elim exists_mayReport_of_run id
  exact ⟨accounts, reported.isCoveredBy hasRoot⟩

/-- The small batch is accounted for, whatever the number of workers. -/
theorem exists_accounts_sample :
    Sample.schema.queryRoot? = some Sample.queryType ∧
      ∃ report accounts, run Sample.schema .standard 4 Sample.batch = .ok report ∧
        report.IsCoveredBy Sample.schema .standard Sample.batch accounts := by
  have hasRoot : Sample.schema.queryRoot? = some Sample.queryType := by decide
  obtain ⟨⟨report, result⟩, covered⟩ := exists_accounts hasRoot .standard 4 Sample.batch
  obtain ⟨accounts, covers⟩ := covered report (.inl result)
  exact ⟨hasRoot, report, accounts, result, covers⟩

end Pipeline

end QueryPaging
