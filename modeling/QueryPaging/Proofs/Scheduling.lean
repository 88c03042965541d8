import QueryPaging.Proofs.Turns
import QueryPaging.Proofs.Uniqueness

/-!
# The same outcomes in any order

A crew that is done has the outcomes of a single worker, and the registry that it leaves holds the
same names. So the report of a run does not depend on the workers.

- `same_of_done`: two crews that divided the same items come to the same.
- `Pipeline.sameAsSequential`: every run in parallel comes to what the sequential one does.
-/

namespace QueryPaging

namespace Interleaving

open NameRegistry

def SameClaims (left right : NameRegistry) : Prop :=
  ∀ name, left.get? name = right.get? name

/-! ## When all is done -/

section Done

variable {index : FragmentIndex} {taken : List String} {items : List Item} {crew : Crew}
  (invariant : Invariant index taken items crew) (done : crew.IsDone)
  (whole : (crew.workers.map Worker.share).flatten = items)

include invariant done whole

theorem outcomes_of_done :
    crew.outcomes = items.map (alone index taken) := by
  have each : ∀ worker ∈ crew.workers,
      worker.finished.map (·.2) = worker.share.map (alone index taken) := by
    intro worker member
    rw [Worker.share_of_isDone (done worker member), List.map_map]
    exact List.map_congr_left (invariant.workers worker member).outcomes
  calc crew.outcomes
      = (crew.workers.map fun worker => worker.finished.map (·.2)).flatten := List.flatMap_def ..
    _ = (crew.workers.map fun worker => worker.share.map (alone index taken)).flatten := by
          rw [List.map_congr_left each]
    _ = ((crew.workers.map Worker.share).flatten).map (alone index taken) := by
          rw [List.map_flatten, List.map_map]
          rfl
    _ = items.map (alone index taken) := by rw [whole]

/-- The registry holds the names of the queries that were free to be embedded. -/
theorem get?_of_done (name hash : String) :
    crew.registry.get? name = some (.generated hash) ↔
      ∃ item ∈ items, ∃ embedding,
        Embedding.generate item.1.document item.2 index = .ok embedding ∧
          IsFree taken embedding ∧
          (embedding.query.text = name ∨ embedding.wrapper.text = name) ∧
          embedding.hash = hash := by
  constructor
  · intro held
    obtain ⟨worker, member, owns⟩ := invariant.owned name hash held
    cases owns with
    | inHand isTask isName isHash =>
        rw [(done worker member).1] at isTask
        cases isTask
    | finished isFinished generated free isName isHash =>
        have among := (invariant.workers worker member).share (finished_mem_share isFinished)
        exact ⟨_, among, _, generated, free, isName, isHash⟩
  · rintro ⟨item, member, embedding, generated, free, isName, rfl⟩
    rw [← whole] at member
    obtain ⟨share, isShare, inside⟩ := List.mem_flatten.mp member
    obtain ⟨worker, isWorker, rfl⟩ := List.mem_map.mp isShare
    rw [Worker.share_of_isDone (done worker isWorker)] at inside
    obtain ⟨each, isFinished, rfl⟩ := List.mem_map.mp inside
    have both := (invariant.workers worker isWorker).kept each isFinished embedding generated free
    rcases isName with rfl | rfl
    · exact both.query
    · exact both.wrapper

end Done

/-- However the same items were divided, and whoever took which turns, in the end the outcomes and
the claims are the same. -/
theorem same_of_done {index : FragmentIndex} {taken : List String} {items : List Item}
    {chunks others : List (List Item)} {crew other : Crew}
    (coherent : Coherent index items)
    (whole : chunks.flatten = items) (otherWhole : others.flatten = items)
    (reaches : Crew.Reaches index (Crew.start (seeded taken) chunks) crew)
    (otherReaches : Crew.Reaches index (Crew.start (seeded taken) others) other)
    (done : crew.IsDone) (otherDone : other.IsDone) :
    crew.outcomes = other.outcomes ∧ SameClaims crew.registry other.registry := by
  have invariant := (invariant_start whole).reaches coherent reaches
  have otherInvariant := (invariant_start otherWhole).reaches coherent otherReaches
  have allShares : (crew.workers.map Worker.share).flatten = items := by
    rw [reaches.map_share_eq, Crew.map_share_start, whole]
  have allOthers : (other.workers.map Worker.share).flatten = items := by
    rw [otherReaches.map_share_eq, Crew.map_share_start, otherWhole]
  -- Neither the outcomes nor the claims are described in terms of the chunks or the turns.
  constructor
  · rw [outcomes_of_done invariant done allShares,
      outcomes_of_done otherInvariant otherDone allOthers]
  · intro name
    refine Option.ext fun holder => ?_
    cases holder with
    | authored => exact (invariant.authored name).trans (otherInvariant.authored name).symm
    | generated hash =>
        exact (get?_of_done invariant done allShares name hash).trans
          (get?_of_done otherInvariant otherDone allOthers name hash).symm

end Interleaving

/-! ## Dividing a batch -/

namespace Workers

variable {Item : Type}

/-- That a list of items is divided among workers into chunks that have a size, none of them lost,
repeated or moved. -/
structure Divides (workers : Nat) (items : List Item) : Prop where
  whole : (split workers items).flatten = items
  sized : 2 ≤ items.length → 0 < chunkSize items.length (max workers 1)

theorem divides (workers : Nat) (items : List Item) :
    Divides workers items := by
  refine ⟨flatten_split workers items, fun many => ?_⟩
  have someWorkers : 0 < max workers 1 := by omega
  exact Nat.div_pos (by omega) someWorkers

theorem length_workThrough {Result State : Type} (step : State → Item → Result × State)
    (state : State) (items : List Item) :
    (workThrough step state items).1.length = items.length := by
  induction items generalizing state with
  | nil => rfl
  | cons item items inductionHypothesis =>
      simp [workThrough, inductionHypothesis]

end Workers

/-! ## Runs in parallel -/

namespace Pipeline

open Interleaving

variable (schema : Schema) (config : IdentityConfig) (documents : List Document)

/-- The fragments of a batch as the first phase left them. -/
def indexOf : FragmentIndex :=
  fragmentIndex (documents.map (entryOf schema config))

/-- The workers of the second phase before any of them has taken a turn. -/
def crewOf (workers : Nat) : Crew :=
  Crew.start (NameRegistry.seeded (documents.map (·.name)))
    (Workers.split workers (paginated schema config documents))

/-- What a single worker makes of the second phase. -/
def sequential : List Outcome × NameRegistry :=
  Workers.mapShared 1 (embedOne (indexOf schema config documents))
    (NameRegistry.seeded (documents.map (·.name))) (paginated schema config documents)

/-- The report on a batch whose outcomes of the second phase are given. -/
def reportFrom (outcomes : List Outcome) : Report where
  documents := finished (documents.map (entryOf schema config)) outcomes
    ++ outcomes.filterMap generated?
  diagnostics :=
    documents.filterMap (fun document => diagnostic? (process schema config document))
      ++ outcomes.filterMap diagnostic?

/-- How the workers of the second phase may stand at some time. -/
def MayStand (workers : Nat) (crew : Crew) : Prop :=
  Crew.Reaches (indexOf schema config documents) (crewOf schema config documents workers) crew

/-- That workers come to what a single one does, whichever turns they take. -/
structure SameAsSequential (workers : Nat) : Prop where
  divides : Workers.Divides workers documents
  dividesFragments : Workers.Divides workers (paginated schema config documents)
  firstPhase : Workers.map workers (process schema config) documents =
    Workers.map 1 (process schema config) documents
  /-- No way of taking turns goes on forever. -/
  ends : WellFounded fun next crew => Crew.Step (indexOf schema config documents) crew next
  /-- Wherever the turns have led, all work can be finished. -/
  finishes : ∀ crew, MayStand schema config documents workers crew →
    ∃ done, MayStand schema config documents workers done ∧ done.IsDone ∧
      Crew.Reaches (indexOf schema config documents) crew done
  outcomes : ∀ crew, MayStand schema config documents workers crew → crew.IsDone →
    crew.outcomes = (sequential schema config documents).1
  registry : ∀ crew, MayStand schema config documents workers crew → crew.IsDone →
    SameClaims crew.registry (sequential schema config documents).2
  report : ∀ crew, MayStand schema config documents workers crew → crew.IsDone →
    reportFrom schema config documents crew.outcomes =
      reportOn 1 documents (Workers.map 1 (process schema config) documents)

variable {schema config documents}

/-- A single worker collects the sequential outcomes, taking its turns alone. -/
theorem exists_mayStand_sequential (schema : Schema) (config : IdentityConfig)
    (documents : List Document) :
    ∃ crew, MayStand schema config documents 1 crew ∧ crew.IsDone ∧
      crew.outcomes = (sequential schema config documents).1 ∧
      crew.registry = (sequential schema config documents).2 := by
  let items := paginated schema config documents
  let registry := NameRegistry.seeded (documents.map (·.name))
  have whole := reaches_workThrough (indexOf schema config documents) items [] registry
  have single : Workers.split 1 items = [items] := by
    simp [Workers.split]
  have isStart : crewOf schema config documents 1 = ⟨[⟨[], none, items⟩], registry⟩ := by
    rw [crewOf, single]
    rfl
  refine ⟨_, isStart ▸ whole, ?_, ?_, ?_⟩
  · intro worker member
    rw [List.mem_singleton.mp member]
    exact ⟨rfl, rfl⟩
  · have lengths := Workers.length_workThrough (embedOne (indexOf schema config documents))
      registry items
    simp only [Crew.outcomes, List.flatMap_cons, List.flatMap_nil, List.append_nil,
      List.nil_append, sequential, Workers.mapShared_eq]
    exact List.map_snd_zip (by omega)
  · rw [sequential, Workers.mapShared_eq]

theorem reportFrom_sequential :
    reportFrom schema config documents (sequential schema config documents).1 =
      reportOn 1 documents (Workers.map 1 (process schema config) documents) := by
  rw [Workers.map_eq]
  simp only [reportOn, zipWith_settled, reportFrom, List.filterMap_map]
  rfl

/-- Where the paginated fragments of one name are the same, any number of workers, taking turns in
any way, comes to the outcomes and the claims of a single one. -/
theorem sameAsSequential (workers : Nat)
    (agree : AgreeOnNames (paginated schema config documents)) :
    SameAsSequential schema config documents workers := by
  have coherent := coherent_paginated (indexOf schema config documents) agree
  obtain ⟨single, singleStands, singleDone, singleOutcomes, singleRegistry⟩ :=
    exists_mayStand_sequential schema config documents
  have same : ∀ crew, MayStand schema config documents workers crew → crew.IsDone →
      crew.outcomes = single.outcomes ∧ SameClaims crew.registry single.registry := by
    intro crew stands done
    exact same_of_done coherent (Workers.flatten_split workers _) (Workers.flatten_split 1 _)
      stands singleStands done singleDone
  rw [singleOutcomes, singleRegistry] at same
  constructor
  case divides => exact Workers.divides workers documents
  case dividesFragments => exact Workers.divides workers _
  case firstPhase => rw [Workers.map_eq, Workers.map_eq]
  case ends => exact Crew.wellFounded_step _
  case finishes =>
    intro crew stands
    obtain ⟨done, reaches, isDone⟩ := Crew.exists_done (indexOf schema config documents) crew
    exact ⟨done, stands.trans reaches, isDone, reaches⟩
  case outcomes => exact fun crew stands done => (same crew stands done).1
  case registry => exact fun crew stands done => (same crew stands done).2
  case report =>
    intro crew stands done
    rw [(same crew stands done).1, reportFrom_sequential]

/-- The twins agree, and two workers that embed one each come to what a single one does. -/
theorem sameAsSequential_twins :
    AgreeOnNames (paginated Sample.schema .standard Sample.twins) ∧
      SameAsSequential Sample.schema .standard Sample.twins 2 := by
  have both : paginated Sample.schema .standard Sample.twins =
      [(Sample.paged, .root Sample.queryType), (Sample.paged, .root Sample.queryType)] := by
    rfl
  have agree : AgreeOnNames (paginated Sample.schema .standard Sample.twins) := by
    intro first isFirst second isSecond left right isLeft isRight _
    rw [both] at isFirst isSecond
    simp only [List.mem_cons, List.not_mem_nil, or_false, or_self] at isFirst isSecond
    rw [isFirst] at isLeft
    rw [isSecond, isLeft, Option.some.injEq] at isRight
    rw [isRight]
  exact ⟨agree, sameAsSequential 2 agree⟩

end Pipeline

end QueryPaging
