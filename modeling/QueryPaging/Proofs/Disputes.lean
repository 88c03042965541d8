import QueryPaging.Proofs.Turns

/-!
# Fragments in no dispute

Fragments of one name want one name for their queries. They dispute it where the hashes differ,
and then it depends on the turns of the workers who gets it. A fragment that is in no dispute comes
out as if it had been embedded alone, whatever becomes of the others.

- `CrewStands.step`: what is known of a crew stays so with every turn.
- `outcomeStands_of_mem_results`: how fragments come out, whether in a dispute or not.
- `isIssued_of_mem_results`: no query that comes out has a name that an author took.
-/

namespace QueryPaging

/-- Queries that have a name in common are called the same. -/
theorem Embedding.query_eq_of_common_name {document other : Document}
    {identity otherIdentity : Identity} {index otherIndex : FragmentIndex}
    {left right : Embedding} {name : String}
    (fromDocument : generate document identity index = .ok left)
    (fromOther : generate other otherIdentity otherIndex = .ok right)
    (isName : left.query.text = name ∨ left.wrapper.text = name)
    (isOther : right.query.text = name ∨ right.wrapper.text = name) :
    left.query.text = right.query.text := by
  rcases isName with query | wrapper
  · rcases isOther with otherQuery | otherWrapper
    · rw [query, otherQuery]
    · exact absurd (query.trans otherWrapper.symm) (query_ne_wrapper fromDocument fromOther)
  · rcases isOther with otherQuery | otherWrapper
    · exact absurd (otherQuery.trans wrapper.symm) (query_ne_wrapper fromOther fromDocument)
    -- What stands before the digits of a wrapper is the name of its fragment.
    · obtain ⟨first, _, leftQuery, _, leftWrapper⟩ := exists_names_of_generate fromDocument
      obtain ⟨second, _, rightQuery, _, rightWrapper⟩ := exists_names_of_generate fromOther
      have same := wrapper.trans otherWrapper.symm
      rw [leftWrapper, rightWrapper] at same
      rw [leftQuery, rightQuery, eq_of_wrapperName_eq same]

namespace Interleaving

open NameRegistry

abbrev Makes (index : FragmentIndex) (item : Item) (embedding : Embedding) : Prop :=
  Embedding.generate item.1.document item.2 index = .ok embedding

section Facts

variable (index : FragmentIndex) (taken : List String) (items : List Item)

/-- That all items that want the name of the query of an item want it for the same hash, unless
nobody can have it. -/
def IsUndisputed (item : Item) : Prop :=
  ∀ embedding, Makes index item embedding → embedding.query.text ∉ taken →
    ∀ other ∈ items, ∀ rival, Makes index other rival →
      rival.query.text = embedding.query.text → rival.hash = embedding.hash

inductive TaskStands : Task → Prop where
  | claimWrapper {item : Item} {embedding : Embedding}
      (made : Makes index item embedding)
      (free : embedding.query.text ∉ taken) :
      TaskStands (.claimWrapper item embedding)
  | releaseQuery {item : Item} {embedding : Embedding}
      (made : Makes index item embedding)
      (free : embedding.query.text ∉ taken)
      (takenWrapper : IsUndisputed index taken items item → embedding.wrapper.text ∈ taken) :
      TaskStands (.releaseQuery item embedding (.nameCollision embedding.wrapper))

/-- That an item comes out as it would alone, beside the authors of some names, and beside those
that there are if it is in no dispute. -/
structure OutcomeStands (each : Item × Outcome) : Prop where
  somewhere : ∃ names, each.2 = alone index names each.1
  here : IsUndisputed index taken items each.1 → each.2 = alone index taken each.1

/-- That the query of an item, if one came out, has names that no author took. -/
def IsIssued (each : Item × Outcome) : Prop :=
  ∀ query, each.2 = .ok query →
    ∃ embedding, Makes index each.1 embedding ∧ IsFree taken embedding ∧ embedding.document = query

/-- What is known of a worker, whatever the registry. -/
structure WorkerStands (worker : Worker) : Prop where
  share : worker.share ⊆ items
  task : ∀ task, worker.task = some task → TaskStands index taken items task
  finished : ∀ each ∈ worker.finished, OutcomeStands index taken items each

/-- What is known of a registry, whatever the workers. -/
structure RegistryStands (registry : NameRegistry) : Prop where
  distinct : registry.IsDistinct
  authored : ∀ name, registry.get? name = some .authored ↔ name ∈ taken
  generated : ∀ name hash, registry.get? name = some (.generated hash) →
    ∃ item ∈ items, ∃ embedding, Makes index item embedding ∧ embedding.hash = hash ∧
      (embedding.query.text = name ∨ embedding.wrapper.text = name)

structure CrewStands (crew : Crew) : Prop where
  workers : ∀ worker ∈ crew.workers, WorkerStands index taken items worker
  registry : RegistryStands index taken items crew.registry

end Facts

variable {index : FragmentIndex} {taken : List String} {items : List Item}
  {registry later : NameRegistry} {worker next : Worker} {item : Item} {embedding : Embedding}

/-! ## The registry -/

section Registry

variable (stands : RegistryStands index taken items registry)

theorem registryStands_seeded :
    RegistryStands index taken items (seeded taken) where
  distinct := isDistinct_seeded taken
  authored := by simp [get?_seeded]
  generated := by simp [get?_seeded]

include stands

theorem RegistryStands.claim {name : String}
    (member : item ∈ items)
    (made : Makes index item embedding)
    (isName : embedding.query.text = name ∨ embedding.wrapper.text = name)
    (claimed : registry.claim name embedding.hash = .ok later) :
    RegistryStands index taken items later := by
  refine ⟨stands.distinct.claim claimed, ?_, ?_⟩
  · intro other
    rw [authored_of_claim claimed, stands.authored]
  · intro other hash held
    rw [get?_of_claim claimed] at held
    by_cases same : name = other
    · rw [if_pos same, Option.some.injEq, Claim.generated.injEq] at held
      exact ⟨item, member, embedding, made, held, same ▸ isName⟩
    · rw [if_neg same] at held
      exact stands.generated other hash held

theorem RegistryStands.release (name : String) :
    RegistryStands index taken items (registry.release name) := by
  refine ⟨stands.distinct.release name, ?_, ?_⟩
  · intro other
    rw [authored_of_release stands.distinct, stands.authored]
  · intro other hash held
    rw [get?_release stands.distinct] at held
    split at held
    · cases held
    · exact stands.generated other hash held

theorem RegistryStands.not_mem_of_claim {name hash : String}
    (claimed : registry.claim name hash = .ok later) :
    name ∉ taken := by
  intro isTaken
  exact ne_authored_of_claim claimed ((stands.authored name).mpr isTaken)

/-- Where no name is disputed, none but authors are in the way. -/
theorem RegistryStands.taken_of_missed {name : String} {fault : Fault}
    (made : Makes index item embedding)
    (undisputed : IsUndisputed index taken items item)
    (free : embedding.query.text ∉ taken)
    (isName : embedding.query.text = name ∨ embedding.wrapper.text = name)
    (missed : registry.claim name embedding.hash = .error fault) :
    name ∈ taken := by
  obtain ⟨_, holder, held, different⟩ := claim_eq_error_iff.mp missed
  cases holder with
  | authored => exact (stands.authored name).mp held
  | generated hash =>
      obtain ⟨other, member, rival, makes, isHash, isOther⟩ := stands.generated name hash held
      have sameQuery : rival.query.text = embedding.query.text :=
        Embedding.query_eq_of_common_name makes made isOther isName
      have sameHash := undisputed embedding made free other member rival makes sameQuery
      rw [← isHash, sameHash] at different
      exact absurd rfl different

end Registry

/-! ## One turn -/

section Turn

theorem outcomeStands_of_fault {fault : Fault}
    (fails : Embedding.generate item.1.document item.2 index = .error fault) :
    OutcomeStands index taken items (item, settle item (.error fault)) where
  somewhere := ⟨taken, (alone_of_fault fails).symm⟩
  here := fun _ => (alone_of_fault fails).symm

theorem outcomeStands_of_query
    (made : Makes index item embedding)
    (takenQuery : IsUndisputed index taken items item → embedding.query.text ∈ taken) :
    OutcomeStands index taken items (item, settle item (.error (.nameCollision embedding.query))) where
  somewhere := ⟨[embedding.query], (alone_of_takenQuery made List.mem_cons_self).symm⟩
  here := fun undisputed => (alone_of_takenQuery made (takenQuery undisputed)).symm

theorem outcomeStands_of_wrapper
    (made : Makes index item embedding)
    (free : embedding.query.text ∉ taken)
    (takenWrapper : IsUndisputed index taken items item → embedding.wrapper.text ∈ taken) :
    OutcomeStands index taken items
      (item, settle item (.error (.nameCollision embedding.wrapper))) := by
  have apart : embedding.query.text ∉ [embedding.wrapper.text] := by
    simpa using Embedding.query_ne_wrapper made made
  constructor
  case somewhere =>
    exact ⟨[embedding.wrapper], (alone_of_takenWrapper made apart List.mem_cons_self).symm⟩
  case here =>
    intro undisputed
    exact (alone_of_takenWrapper made free (takenWrapper undisputed)).symm

theorem outcomeStands_of_free
    (made : Makes index item embedding)
    (free : IsFree taken embedding) :
    OutcomeStands index taken items (item, settle item (.ok embedding.document)) where
  somewhere := ⟨taken, (alone_of_isFree made free).symm⟩
  here := fun _ => (alone_of_isFree made free).symm

theorem WorkerStands.conclude {finished : List (Item × Outcome)} {task : Option Task}
    {waiting others : List Item} {result : Except Fault Document}
    (stands : WorkerStands index taken items ⟨finished, task, others⟩)
    (share : (Worker.conclude ⟨finished, none, waiting⟩ item result).share ⊆ items)
    (outcome : OutcomeStands index taken items (item, settle item result)) :
    WorkerStands index taken items (Worker.conclude ⟨finished, none, waiting⟩ item result) := by
  constructor
  case share => exact share
  case task =>
    intro task isTask
    cases isTask
  case finished =>
    intro each member
    rcases List.mem_append.mp member with before | last
    · exact stands.finished each before
    · rw [List.mem_singleton.mp last]
      exact outcome

theorem isIssued_of_fault {each : Item × Outcome} {fault : Fault}
    (last : each ∈ [(item, settle item (.error fault))]) :
    IsIssued index taken each := by
  intro query isMade
  rw [List.mem_singleton.mp last] at isMade
  cases isMade

/-- A turn keeps what is known of the worker that takes it, and of the registry. -/
theorem WorkerStands.moves
    (stands : WorkerStands index taken items worker)
    (registryStands : RegistryStands index taken items registry)
    (moves : Worker.Moves index worker registry next later) :
    WorkerStands index taken items next ∧ RegistryStands index taken items later := by
  have share : next.share ⊆ items := moves.share_eq ▸ stands.share
  cases moves with
  | fails fails => exact ⟨stands.conclude share (outcomeStands_of_fault fails), registryStands⟩
  | @missesQuery finished item waiting _ embedding fault made missed =>
      obtain ⟨rfl, _⟩ := claim_eq_error_iff.mp missed
      have takenQuery : IsUndisputed index taken items item → embedding.query.text ∈ taken := by
        intro undisputed
        by_contra free
        exact free (registryStands.taken_of_missed made undisputed free (Or.inl rfl) missed)
      exact ⟨stands.conclude share (outcomeStands_of_query made takenQuery), registryStands⟩
  | @claimsQuery finished item waiting _ _ embedding made claimed =>
      have member : item ∈ items := stands.share (by simp [Worker.share])
      have free := registryStands.not_mem_of_claim claimed
      refine ⟨⟨share, ?_, stands.finished⟩,
        registryStands.claim member made (Or.inl rfl) claimed⟩
      intro task isTask
      cases isTask
      exact .claimWrapper made free
  | @claimsWrapper finished item waiting _ _ embedding claimed =>
      have member : item ∈ items := stands.share (by simp [Worker.share, Task.item])
      obtain ⟨made, free⟩ := stands.task _ rfl
      have freeWrapper := registryStands.not_mem_of_claim claimed
      exact ⟨stands.conclude share (outcomeStands_of_free made ⟨free, freeWrapper⟩),
        registryStands.claim member made (Or.inr rfl) claimed⟩
  | @missesWrapper finished item waiting _ embedding fault missed =>
      obtain ⟨made, free⟩ := stands.task _ rfl
      obtain ⟨rfl, _⟩ := claim_eq_error_iff.mp missed
      refine ⟨⟨share, ?_, stands.finished⟩, registryStands⟩
      intro task isTask
      cases isTask
      refine .releaseQuery made free fun undisputed => ?_
      exact registryStands.taken_of_missed made undisputed free (Or.inr rfl) missed
  | @releasesQuery finished item waiting _ embedding fault =>
      cases stands.task _ rfl with
      | releaseQuery made free takenWrapper =>
          exact ⟨stands.conclude share (outcomeStands_of_wrapper made free takenWrapper),
            registryStands.release embedding.query⟩

/-- A turn that brings out a query has claimed both of its names. -/
theorem WorkerStands.mem_or_isIssued {each : Item × Outcome}
    (stands : WorkerStands index taken items worker)
    (registryStands : RegistryStands index taken items registry)
    (moves : Worker.Moves index worker registry next later)
    (member : each ∈ next.finished) :
    each ∈ worker.finished ∨ IsIssued index taken each := by
  cases moves with
  | claimsQuery made claimed => exact Or.inl member
  | missesWrapper missed => exact Or.inl member
  | claimsWrapper claimed =>
      rcases List.mem_append.mp member with before | last
      · exact Or.inl before
      · obtain ⟨made, free⟩ := stands.task _ rfl
        have freeWrapper := registryStands.not_mem_of_claim claimed
        refine Or.inr fun query isMade => ?_
        rw [List.mem_singleton.mp last] at isMade ⊢
        exact ⟨_, made, ⟨free, freeWrapper⟩, Except.ok.inj isMade⟩
  | fails fails => exact (List.mem_append.mp member).imp_right isIssued_of_fault
  | missesQuery made missed => exact (List.mem_append.mp member).imp_right isIssued_of_fault
  | releasesQuery => exact (List.mem_append.mp member).imp_right isIssued_of_fault

end Turn

/-! ## Whole runs -/

section Crews

variable {crew done : Crew}

theorem stands_start {chunks : List (List Item)}
    (whole : chunks.flatten = items) :
    CrewStands index taken items (Crew.start (seeded taken) chunks) := by
  refine ⟨?_, registryStands_seeded⟩
  intro worker member
  obtain ⟨chunk, isChunk, rfl⟩ := List.mem_map.mp member
  constructor
  case share =>
    intro item isItem
    rw [Worker.share_start] at isItem
    rw [← whole]
    exact List.mem_flatten_of_mem isChunk isItem
  case task =>
    intro task isTask
    cases isTask
  case finished =>
    intro each isFinished
    cases isFinished

theorem Crew.Step.mem_or_moves {next : Crew}
    (step : Crew.Step index crew next)
    (member : worker ∈ next.workers) :
    worker ∈ crew.workers ∨
      ∃ mover ∈ crew.workers, Worker.Moves index mover crew.registry worker next.registry := by
  obtain ⟨moves⟩ := step
  rename_i before after mover moved registry later
  rcases List.mem_append.mp member with earlier | rest
  · exact Or.inl (List.mem_append_left _ earlier)
  rcases List.mem_cons.mp rest with rfl | behind
  · exact Or.inr ⟨mover, by simp, moves⟩
  · exact Or.inl (List.mem_append_right _ (List.mem_cons_of_mem _ behind))

theorem CrewStands.step {next : Crew}
    (stands : CrewStands index taken items crew)
    (step : Crew.Step index crew next) :
    CrewStands index taken items next := by
  constructor
  case workers =>
    intro worker member
    rcases step.mem_or_moves member with unmoved | ⟨mover, isMover, moves⟩
    · exact stands.workers worker unmoved
    · exact ((stands.workers mover isMover).moves stands.registry moves).1
  case registry =>
    obtain ⟨moves⟩ := step
    exact ((stands.workers _ (by simp)).moves stands.registry moves).2

theorem CrewStands.reaches {next : Crew}
    (stands : CrewStands index taken items crew)
    (reaches : Crew.Reaches index crew next) :
    CrewStands index taken items next := by
  induction reaches with
  | refl => exact stands
  | tail _ step inductionHypothesis => exact inductionHypothesis.step step

namespace Crew

/-- The items that are finished, each with its outcome. -/
def results (crew : Crew) : List (Item × Outcome) :=
  crew.workers.flatMap (·.finished)

theorem map_snd_results (crew : Crew) :
    crew.results.map (·.2) = crew.outcomes := by
  rw [results, outcomes, List.map_flatMap]

theorem map_fst_results
    (isDone : crew.IsDone) :
    crew.results.map (·.1) = (crew.workers.map Worker.share).flatten := by
  rw [results, List.map_flatMap, List.flatMap_def]
  exact congrArg List.flatten
    (List.map_congr_left fun worker member => (Worker.share_of_isDone (isDone worker member)).symm)

end Crew

theorem outcomeStands_of_mem_results {chunks : List (List Item)} {each : Item × Outcome}
    (whole : chunks.flatten = items)
    (reaches : Crew.Reaches index (Crew.start (seeded taken) chunks) crew)
    (member : each ∈ crew.results) :
    OutcomeStands index taken items each := by
  obtain ⟨worker, isWorker, finished⟩ := List.mem_flatMap.mp member
  exact (((stands_start whole).reaches reaches).workers worker isWorker).finished each finished

/-- Whatever turns were taken, the queries that came out have names that no author took. -/
theorem isIssued_of_mem_results {chunks : List (List Item)} {each : Item × Outcome}
    (whole : chunks.flatten = items)
    (reaches : Crew.Reaches index (Crew.start (seeded taken) chunks) crew)
    (member : each ∈ crew.results) :
    IsIssued index taken each := by
  induction reaches with
  | refl =>
      obtain ⟨worker, isWorker, finished⟩ := List.mem_flatMap.mp member
      obtain ⟨chunk, _, rfl⟩ := List.mem_map.mp isWorker
      cases finished
  | tail before step inductionHypothesis =>
      have stands := (stands_start whole).reaches before
      obtain ⟨worker, isWorker, finished⟩ := List.mem_flatMap.mp member
      rcases step.mem_or_moves isWorker with unmoved | ⟨mover, isMover, moves⟩
      · exact inductionHypothesis (List.mem_flatMap.mpr ⟨worker, unmoved, finished⟩)
      rcases (stands.workers mover isMover).mem_or_isIssued stands.registry moves finished with
        earlier | issued
      · exact inductionHypothesis (List.mem_flatMap.mpr ⟨mover, isMover, earlier⟩)
      · exact issued

end Crews

end Interleaving

end QueryPaging
