import QueryPaging.Proofs.Agreement
import QueryPaging.Proofs.Interleaving

/-!
# What turns leave known

However the workers of the second phase take turns, every paginated fragment comes out as if it had
been embedded alone, on the names that authors took. A crew is followed turn by turn with what is
known of its workers and of their registry.

- `alone_of_isFree`, `alone_of_takenQuery`, `alone_of_takenWrapper`: what comes of a fragment alone.
- `Invariant.turn`: what is known of a crew stays so with every turn.
-/

namespace QueryPaging

namespace Interleaving

open NameRegistry

/-! ## What is known in between

The registry at the start holds authored names alone, which are called taken. -/

section Facts

variable (index : FragmentIndex) (taken : List String) (items : List Item)

/-- The outcome of a paginated fragment that is embedded alone. -/
def alone (item : Item) : Outcome :=
  (Pipeline.embedOne index (seeded taken) item).1

structure IsFree (embedding : Embedding) : Prop where
  query : embedding.query.text ∉ taken
  wrapper : embedding.wrapper.text ∉ taken

/-- That a registry has both names of a query for it. -/
structure HasBoth (registry : NameRegistry) (embedding : Embedding) : Prop where
  query : registry.get? embedding.query = some (.generated embedding.hash)
  wrapper : registry.get? embedding.wrapper = some (.generated embedding.hash)

inductive TaskFits (registry : NameRegistry) : Task → Prop where
  | claimWrapper {item : Item} {embedding : Embedding}
      (generated : Embedding.generate item.1.document item.2 index = .ok embedding)
      (freeQuery : embedding.query.text ∉ taken)
      (held : embedding.wrapper.text ∉ taken →
        registry.get? embedding.query = some (.generated embedding.hash)) :
      TaskFits registry (.claimWrapper item embedding)
  | releaseQuery {item : Item} {embedding : Embedding}
      (generated : Embedding.generate item.1.document item.2 index = .ok embedding)
      (freeQuery : embedding.query.text ∉ taken)
      (takenWrapper : embedding.wrapper.text ∈ taken) :
      TaskFits registry (.releaseQuery item embedding (.nameCollision embedding.wrapper))

/-- What is known of a worker. -/
structure Fits (registry : NameRegistry) (worker : Worker) : Prop where
  share : worker.share ⊆ items
  outcomes : ∀ each ∈ worker.finished, each.2 = alone index taken each.1
  kept : ∀ each ∈ worker.finished, ∀ embedding,
    Embedding.generate each.1.1.document each.1.2 index = .ok embedding →
    IsFree taken embedding → HasBoth registry embedding
  task : ∀ task, worker.task = some task → TaskFits index taken registry task

/-- Whether a worker has a name for a hash, for the query in its hands or for a finished one. -/
inductive Owns (worker : Worker) (name hash : String) : Prop where
  | inHand {task : Task} (isTask : worker.task = some task)
      (isName : task.embedding.query.text = name) (isHash : task.embedding.hash = hash)
  | finished {each : Item × Outcome} {embedding : Embedding} (member : each ∈ worker.finished)
      (generated : Embedding.generate each.1.1.document each.1.2 index = .ok embedding)
      (free : IsFree taken embedding)
      (isName : embedding.query.text = name ∨ embedding.wrapper.text = name)
      (isHash : embedding.hash = hash)

/-- What is known of a crew at any time. -/
structure Invariant (crew : Crew) : Prop where
  workers : ∀ worker ∈ crew.workers, Fits index taken items crew.registry worker
  distinct : crew.registry.IsDistinct
  authored : ∀ name, crew.registry.get? name = some .authored ↔ name ∈ taken
  owned : ∀ name hash, crew.registry.get? name = some (.generated hash) →
    ∃ worker ∈ crew.workers, Owns index taken worker name hash

end Facts

/-! ## Embedding alone -/

section Alone

variable {index : FragmentIndex} {taken : List String} {item : Item} {embedding : Embedding}

theorem alone_of_fault {fault : Fault}
    (generated : Embedding.generate item.1.document item.2 index = .error fault) :
    alone index taken item = settle item (.error fault) := by
  rw [alone, Pipeline.embedOne, Embedding.embed, generated]
  rfl

variable (generated : Embedding.generate item.1.document item.2 index = .ok embedding)

include generated

theorem alone_eq :
    alone index taken item =
      settle item ((embedding.claimNames (seeded taken)).1.map fun _ => embedding.document) := by
  rw [alone, Pipeline.embedOne, Embedding.embed, generated]
  simp only
  split <;> next claimed => rw [claimed]; rfl

theorem alone_of_takenQuery
    (takenQuery : embedding.query.text ∈ taken) :
    alone index taken item = settle item (.error (.nameCollision embedding.query)) := by
  have isAuthored : (seeded taken).get? embedding.query = some .authored := by
    rw [get?_seeded, if_pos takenQuery]
  have missed : (seeded taken).claim embedding.query embedding.hash =
      .error (.nameCollision embedding.query) :=
    claim_eq_error_iff.mpr ⟨rfl, .authored, isAuthored, by simp⟩
  rw [alone_eq generated, Embedding.claimNames, missed]
  rfl

theorem alone_of_takenWrapper
    (freeQuery : embedding.query.text ∉ taken)
    (takenWrapper : embedding.wrapper.text ∈ taken) :
    alone index taken item = settle item (.error (.nameCollision embedding.wrapper)) := by
  have claimed := claim_of_free embedding.hash (get?_seeded_eq_none freeQuery)
  have isAuthored := (authored_of_claim claimed embedding.wrapper).mpr
    (by rw [get?_seeded, if_pos takenWrapper])
  have missed := claim_eq_error_iff.mpr
    ⟨rfl, .authored, isAuthored, (by simp : Claim.authored ≠ .generated embedding.hash)⟩
  rw [alone_eq generated, Embedding.claimNames, claimed]
  simp only
  rw [missed]
  rfl

theorem alone_of_isFree
    (free : IsFree taken embedding) :
    alone index taken item = settle item (.ok embedding.document) := by
  have claimed := claim_of_free embedding.hash (get?_seeded_eq_none free.query)
  have different := Embedding.query_ne_wrapper generated generated
  have stillFree := get?_of_claim claimed embedding.wrapper
  rw [if_neg different, get?_seeded_eq_none free.wrapper] at stillFree
  rw [alone_eq generated, Embedding.claimNames, claimed]
  simp only
  rw [claim_of_free embedding.hash stillFree]
  rfl

end Alone

/-! ## One turn -/

section Turn

variable {index : FragmentIndex} {taken : List String} {items : List Item}
  {registry later : NameRegistry} {worker next : Worker} {item : Item} {embedding : Embedding}

theorem TaskFits.generated {task : Task}
    (fits : TaskFits index taken registry task) :
    Embedding.generate task.item.1.document task.item.2 index = .ok task.embedding := by
  cases fits with
  | claimWrapper generated freeQuery held => exact generated
  | releaseQuery generated freeQuery takenWrapper => exact generated

theorem item_mem_share {task : Task}
    (isTask : worker.task = some task) :
    task.item ∈ worker.share := by
  simp [Worker.share, isTask]

theorem finished_mem_share {each : Item × Outcome}
    (member : each ∈ worker.finished) :
    each.1 ∈ worker.share :=
  List.mem_append_left _ (List.mem_append_left _ (List.mem_map_of_mem member))

theorem hash_eq_of_owns {name hash : String}
    (coherent : Coherent index items)
    (fits : Fits index taken items registry worker)
    (owns : Owns index taken worker name hash)
    (member : item ∈ items)
    (generated : Embedding.generate item.1.document item.2 index = .ok embedding)
    (isName : embedding.query.text = name ∨ embedding.wrapper.text = name) :
    hash = embedding.hash := by
  cases owns with
  | @inHand task isTask isQuery isHash =>
      have made := (fits.task task isTask).generated
      have among := fits.share (item_mem_share isTask)
      subst isQuery
      rcases isName with query | wrapper
      · rw [← isHash]
        exact (coherent _ among _ member _ _ made generated (Or.inl query.symm)).hash
      · exact absurd wrapper.symm (Embedding.query_ne_wrapper made generated)
  | @finished each other isFinished made free isOther isHash =>
      have among := fits.share (finished_mem_share isFinished)
      rw [← isHash]
      -- A query never shares its name with a wrapper, so like meets like or there is no meeting.
      rcases isName with rfl | rfl
      · rcases isOther with query | wrapper
        · exact (coherent _ among _ member _ _ made generated (Or.inl query)).hash
        · exact absurd wrapper.symm (Embedding.query_ne_wrapper generated made)
      · rcases isOther with query | wrapper
        · exact absurd query (Embedding.query_ne_wrapper made generated)
        · exact (coherent _ among _ member _ _ made generated (Or.inr wrapper)).hash

variable {crew : Crew} (invariant : Invariant index taken items crew)

include invariant

/-- A claim succeeds on none but free names. -/
theorem Invariant.free_of_claim {name hash : String}
    (claimed : crew.registry.claim name hash = .ok later) :
    name ∉ taken := by
  intro isTaken
  exact ne_authored_of_claim claimed ((invariant.authored name).mpr isTaken)

/-- A query misses none but taken names. -/
theorem Invariant.taken_of_claim {name : String} {fault : Fault}
    (coherent : Coherent index items)
    (member : item ∈ items)
    (generated : Embedding.generate item.1.document item.2 index = .ok embedding)
    (isName : embedding.query.text = name ∨ embedding.wrapper.text = name)
    (missed : crew.registry.claim name embedding.hash = .error fault) :
    fault = .nameCollision name ∧ name ∈ taken := by
  obtain ⟨isCollision, holder, held, different⟩ := claim_eq_error_iff.mp missed
  refine ⟨isCollision, ?_⟩
  cases holder with
  | authored => exact (invariant.authored name).mp held
  | generated hash =>
      obtain ⟨owner, among, owns⟩ := invariant.owned name hash held
      have sameHash := hash_eq_of_owns coherent (invariant.workers owner among) owns member
        generated isName
      rw [sameHash] at different
      exact absurd rfl different

end Turn

/-! ## What a turn leaves alone -/

section Steady

variable (index : FragmentIndex) (taken : List String) (items : List Item)

/-- That queries whose wrapper is free keep the names that a registry has for them. -/
def Steady (registry later : NameRegistry) : Prop :=
  ∀ item ∈ items, ∀ embedding,
    Embedding.generate item.1.document item.2 index = .ok embedding →
    embedding.wrapper.text ∉ taken →
    ∀ name, embedding.query.text = name ∨ embedding.wrapper.text = name →
      registry.get? name = some (.generated embedding.hash) →
      later.get? name = some (.generated embedding.hash)

variable {index taken items} {registry later : NameRegistry} {worker : Worker} {item : Item}
  {embedding : Embedding}

theorem steady_of_claim {name hash : String}
    (claimed : registry.claim name hash = .ok later) :
    Steady index taken items registry later :=
  fun _ _ _ _ _ _ _ held => get?_of_claim_of_held claimed held

/-- A name is given up only where the wrapper is taken, so no query that is kept loses it. -/
theorem steady_of_release
    (coherent : Coherent index items)
    (distinct : registry.IsDistinct)
    (member : item ∈ items)
    (generated : Embedding.generate item.1.document item.2 index = .ok embedding)
    (takenWrapper : embedding.wrapper.text ∈ taken) :
    Steady index taken items registry (registry.release embedding.query) := by
  intro other isOther another made freeWrapper name isName held
  have different : embedding.query.text ≠ name := by
    rintro rfl
    rcases isName with query | wrapper
    -- A query of that name would match this one, whose wrapper is taken.
    · have alike := coherent _ isOther _ member _ _ made generated (Or.inl query)
      rw [alike.wrapper] at freeWrapper
      exact freeWrapper takenWrapper
    · exact Embedding.query_ne_wrapper generated made wrapper.symm
  rw [get?_release distinct, if_neg fun same => different same.1, held]

theorem Fits.of_steady
    (fits : Fits index taken items registry worker)
    (steady : Steady index taken items registry later) :
    Fits index taken items later worker := by
  constructor
  case share => exact fits.share
  case outcomes => exact fits.outcomes
  case kept =>
    intro each member embedding generated free
    have both := fits.kept each member embedding generated free
    have among := fits.share (finished_mem_share member)
    constructor
    · exact steady _ among _ generated free.wrapper _ (Or.inl rfl) both.query
    · exact steady _ among _ generated free.wrapper _ (Or.inr rfl) both.wrapper
  case task =>
    intro task isTask
    have among := fits.share (item_mem_share isTask)
    cases fits.task task isTask with
    | claimWrapper generated freeQuery held =>
        refine .claimWrapper generated freeQuery fun freeWrapper => ?_
        exact steady _ among _ generated freeWrapper _ (Or.inl rfl) (held freeWrapper)
    | releaseQuery generated freeQuery takenWrapper =>
        exact .releaseQuery generated freeQuery takenWrapper

/-- A worker that finishes an item fits as before if the item came out as it would alone. -/
theorem Fits.conclude {finished : List (Item × Outcome)} {task : Option Task}
    {waiting others : List Item} {result : Except Fault Document}
    (fits : Fits index taken items registry ⟨finished, task, others⟩)
    (steady : Steady index taken items registry later)
    (share : (Worker.conclude ⟨finished, none, waiting⟩ item result).share ⊆ items)
    (outcome : alone index taken item = settle item result)
    (kept : ∀ embedding, Embedding.generate item.1.document item.2 index = .ok embedding →
      IsFree taken embedding → HasBoth later embedding) :
    Fits index taken items later (Worker.conclude ⟨finished, none, waiting⟩ item result) := by
  have steadily := fits.of_steady steady
  constructor
  case share => exact share
  case outcomes =>
    intro each member
    rcases List.mem_append.mp member with before | last
    · exact steadily.outcomes each before
    · rw [List.mem_singleton.mp last, outcome]
  case kept =>
    intro each member
    rcases List.mem_append.mp member with before | last
    · exact steadily.kept each before
    · rw [List.mem_singleton.mp last]
      exact kept
  case task =>
    intro task isTask
    cases isTask

/-- What a worker has stays with it if it gives up nothing that is finished or in its hands. -/
theorem Owns.carry {next : Worker} {name hash : String}
    (owns : Owns index taken worker name hash)
    (finished : worker.finished ⊆ next.finished)
    (inHand : ∀ task, worker.task = some task → task.embedding.query.text = name →
      Owns index taken next name task.embedding.hash) :
    Owns index taken next name hash := by
  cases owns with
  | inHand isTask isName isHash =>
      rw [← isHash]
      exact inHand _ isTask isName
  | finished member generated free isName isHash =>
      exact .finished (finished member) generated free isName isHash

end Steady

/-! ## The invariant -/

/-- What a turn of one worker makes of the facts. -/
structure Advances (index : FragmentIndex) (taken : List String) (items : List Item)
    (registry later : NameRegistry) (worker next : Worker) : Prop where
  fits : Fits index taken items later next
  steady : Steady index taken items registry later
  distinct : later.IsDistinct
  authored : ∀ name, later.get? name = some .authored ↔ registry.get? name = some .authored
  owned : ∀ name hash, later.get? name = some (.generated hash) →
    Owns index taken next name hash ∨
      (registry.get? name = some (.generated hash) ∧
        (Owns index taken worker name hash → Owns index taken next name hash))

section Invariant

variable {index : FragmentIndex} {taken : List String} {items : List Item}
  {registry later : NameRegistry} {worker next : Worker}

section Steps

variable {crew : Crew} {finished : List (Item × Outcome)} {item : Item} {waiting : List Item}
  {embedding : Embedding} {fault : Fault}
  (invariant : Invariant index taken items crew)

include invariant

theorem advances_of_fault
    (fits : Fits index taken items crew.registry ⟨finished, none, item :: waiting⟩)
    (share : (Worker.conclude ⟨finished, none, waiting⟩ item (.error fault)).share ⊆ items)
    (outcome : alone index taken item = settle item (.error fault))
    (notFree : ∀ embedding, Embedding.generate item.1.document item.2 index = .ok embedding →
      ¬ IsFree taken embedding) :
    Advances index taken items crew.registry crew.registry ⟨finished, none, item :: waiting⟩
      (Worker.conclude ⟨finished, none, waiting⟩ item (.error fault)) where
  fits := fits.conclude (fun _ _ _ _ _ _ _ held => held) share outcome
    fun embedding generated free => absurd free (notFree embedding generated)
  steady := fun _ _ _ _ _ _ _ held => held
  distinct := invariant.distinct
  authored := fun _ => Iff.rfl
  owned := fun _ _ held => Or.inr ⟨held, fun owns =>
    owns.carry (List.subset_append_left ..) fun _ isTask => by cases isTask⟩

theorem advances_of_claimsQuery
    (fits : Fits index taken items crew.registry ⟨finished, none, item :: waiting⟩)
    (share : (⟨finished, some (.claimWrapper item embedding), waiting⟩ : Worker).share ⊆ items)
    (generated : Embedding.generate item.1.document item.2 index = .ok embedding)
    (claimed : crew.registry.claim embedding.query embedding.hash = .ok later) :
    Advances index taken items crew.registry later ⟨finished, none, item :: waiting⟩
      ⟨finished, some (.claimWrapper item embedding), waiting⟩ := by
  have freeQuery := invariant.free_of_claim claimed
  have steady : Steady index taken items crew.registry later := steady_of_claim claimed
  have steadily := fits.of_steady steady
  have hasQuery := get?_of_claim claimed embedding.query
  rw [if_pos rfl] at hasQuery
  constructor
  case fits =>
    refine ⟨share, steadily.outcomes, steadily.kept, ?_⟩
    rintro task isTask
    cases isTask
    exact .claimWrapper generated freeQuery fun _ => hasQuery
  case steady => exact steady
  case distinct => exact invariant.distinct.claim claimed
  case authored => exact authored_of_claim claimed
  case owned =>
    intro name hash held
    by_cases isQuery : embedding.query.text = name
    · rw [← isQuery, hasQuery, Option.some.injEq, Claim.generated.injEq] at held
      exact Or.inl (.inHand rfl isQuery held)
    · rw [get?_of_claim claimed, if_neg isQuery] at held
      refine Or.inr ⟨held, fun owns => owns.carry (List.Subset.refl _) fun task isTask => ?_⟩
      cases isTask

theorem advances_of_claimsWrapper
    (fits : Fits index taken items crew.registry
      ⟨finished, some (.claimWrapper item embedding), waiting⟩)
    (share : (Worker.conclude ⟨finished, none, waiting⟩ item
      (.ok embedding.document)).share ⊆ items)
    (claimed : crew.registry.claim embedding.wrapper embedding.hash = .ok later) :
    Advances index taken items crew.registry later
      ⟨finished, some (.claimWrapper item embedding), waiting⟩
      (Worker.conclude ⟨finished, none, waiting⟩ item (.ok embedding.document)) := by
  have freeWrapper := invariant.free_of_claim claimed
  have steady : Steady index taken items crew.registry later := steady_of_claim claimed
  have hasWrapper := get?_of_claim claimed embedding.wrapper
  rw [if_pos rfl] at hasWrapper
  have isFinished : (item, settle item (.ok embedding.document)) ∈
      (Worker.conclude ⟨finished, none, waiting⟩ item (.ok embedding.document)).finished :=
    List.mem_append_right _ List.mem_cons_self
  cases fits.task _ rfl with
  | claimWrapper generated freeQuery hasQuery =>
      have free : IsFree taken embedding := ⟨freeQuery, freeWrapper⟩
      have stillQuery := get?_of_claim_of_held claimed (hasQuery freeWrapper)
      constructor
      case fits =>
        refine fits.conclude steady share (alone_of_isFree generated free) ?_
        intro another made _
        rw [generated, Except.ok.injEq] at made
        exact made ▸ ⟨stillQuery, hasWrapper⟩
      case steady => exact steady
      case distinct => exact invariant.distinct.claim claimed
      case authored => exact authored_of_claim claimed
      case owned =>
        intro name hash held
        by_cases isWrapper : embedding.wrapper.text = name
        · rw [← isWrapper, hasWrapper, Option.some.injEq, Claim.generated.injEq] at held
          exact Or.inl (.finished isFinished generated free (Or.inr isWrapper) held)
        · rw [get?_of_claim claimed, if_neg isWrapper] at held
          refine Or.inr ⟨held, fun owns =>
            owns.carry (List.subset_append_left ..) fun task isTask isName => ?_⟩
          -- The name of the query passes from the worker's hands to what it finished.
          cases isTask
          exact .finished isFinished generated free (Or.inl isName) rfl

theorem advances_of_missesWrapper
    (coherent : Coherent index items)
    (fits : Fits index taken items crew.registry
      ⟨finished, some (.claimWrapper item embedding), waiting⟩)
    (share : (⟨finished, some (.releaseQuery item embedding fault), waiting⟩ : Worker).share ⊆
      items)
    (missed : crew.registry.claim embedding.wrapper embedding.hash = .error fault) :
    Advances index taken items crew.registry crew.registry
      ⟨finished, some (.claimWrapper item embedding), waiting⟩
      ⟨finished, some (.releaseQuery item embedding fault), waiting⟩ := by
  cases fits.task _ rfl with
  | claimWrapper generated freeQuery hasQuery =>
      have among : item ∈ items := fits.share (by simp [Worker.share, Task.item])
      obtain ⟨rfl, takenWrapper⟩ :=
        invariant.taken_of_claim coherent among generated (Or.inr rfl) missed
      constructor
      case fits =>
        refine ⟨share, fits.outcomes, fits.kept, ?_⟩
        rintro task isTask
        cases isTask
        exact .releaseQuery generated freeQuery takenWrapper
      case steady => exact fun _ _ _ _ _ _ _ held => held
      case distinct => exact invariant.distinct
      case authored => exact fun _ => Iff.rfl
      case owned =>
        intro name hash held
        refine Or.inr ⟨held, fun owns =>
          owns.carry (List.Subset.refl _) fun task isTask isName => ?_⟩
        cases isTask
        exact .inHand rfl isName rfl

theorem advances_of_releasesQuery
    (coherent : Coherent index items)
    (fits : Fits index taken items crew.registry
      ⟨finished, some (.releaseQuery item embedding fault), waiting⟩)
    (share : (Worker.conclude ⟨finished, none, waiting⟩ item (.error fault)).share ⊆ items) :
    Advances index taken items crew.registry (crew.registry.release embedding.query)
      ⟨finished, some (.releaseQuery item embedding fault), waiting⟩
      (Worker.conclude ⟨finished, none, waiting⟩ item (.error fault)) := by
  cases fits.task _ rfl with
  | releaseQuery generated freeQuery takenWrapper =>
      have among : item ∈ items := fits.share (by simp [Worker.share, Task.item])
      have steady : Steady index taken items crew.registry
          (crew.registry.release embedding.query) :=
        steady_of_release coherent invariant.distinct among generated takenWrapper
      constructor
      case fits =>
        refine fits.conclude steady share
          (alone_of_takenWrapper generated freeQuery takenWrapper) ?_
        intro another made free
        rw [generated, Except.ok.injEq] at made
        exact absurd (made ▸ takenWrapper) free.wrapper
      case steady => exact steady
      case distinct => exact invariant.distinct.release _
      case authored => exact authored_of_release invariant.distinct _
      case owned =>
        intro name hash held
        have different : embedding.query.text ≠ name := by
          rintro rfl
          have isFree : crew.registry.get? embedding.query ≠ some .authored := fun isAuthored =>
            freeQuery ((invariant.authored _).mp isAuthored)
          rw [get?_release invariant.distinct, if_pos ⟨rfl, isFree⟩] at held
          cases held
        rw [get?_release invariant.distinct, if_neg fun same => different same.1] at held
        refine Or.inr ⟨held, fun owns =>
          owns.carry (List.subset_append_left ..) fun task isTask isName => ?_⟩
        cases isTask
        exact absurd isName different

end Steps

/-- Every turn of a worker keeps what is known, by the steps that it can take. -/
theorem Invariant.advances {crew : Crew}
    (invariant : Invariant index taken items crew)
    (coherent : Coherent index items)
    (member : worker ∈ crew.workers)
    (moves : Worker.Moves index worker crew.registry next later) :
    Advances index taken items crew.registry later worker next := by
  have fits := invariant.workers worker member
  have share := fits.share
  rw [← moves.share_eq] at share
  obtain ⟨workers, registry⟩ := crew
  cases moves with
  | fails generated =>
      refine advances_of_fault invariant fits share (alone_of_fault generated) ?_
      intro embedding made
      rw [generated] at made
      cases made
  | missesQuery generated missed =>
      have among := fits.share (List.mem_append_right _ List.mem_cons_self)
      obtain ⟨rfl, takenQuery⟩ :=
        invariant.taken_of_claim coherent among generated (Or.inl rfl) missed
      refine advances_of_fault invariant fits share (alone_of_takenQuery generated takenQuery) ?_
      intro another made free
      rw [generated, Except.ok.injEq] at made
      exact free.query (made ▸ takenQuery)
  | claimsQuery generated claimed =>
      exact advances_of_claimsQuery invariant fits share generated claimed
  | claimsWrapper claimed => exact advances_of_claimsWrapper invariant fits share claimed
  | missesWrapper missed => exact advances_of_missesWrapper invariant coherent fits share missed
  | releasesQuery => exact advances_of_releasesQuery invariant coherent fits share

theorem Invariant.turn {crew later : Crew}
    (invariant : Invariant index taken items crew)
    (coherent : Coherent index items)
    (step : Crew.Step index crew later) :
    Invariant index taken items later := by
  obtain @⟨before, after, worker, next, registry, later, moves⟩ := step
  have advances := invariant.advances coherent (by simp) moves
  constructor
  case workers =>
    intro each member
    rcases List.mem_append.mp member with earlier | later
    · exact (invariant.workers each (List.mem_append_left _ earlier)).of_steady advances.steady
    rcases List.mem_cons.mp later with rfl | behind
    · exact advances.fits
    · have among : each ∈ before ++ worker :: after :=
        List.mem_append_right _ (List.mem_cons_of_mem _ behind)
      exact (invariant.workers each among).of_steady advances.steady
  case distinct => exact advances.distinct
  case authored => exact fun name => (advances.authored name).trans (invariant.authored name)
  case owned =>
    intro name hash held
    have isNext : next ∈ before ++ next :: after := by simp
    rcases advances.owned name hash held with owns | ⟨before, still⟩
    · exact ⟨next, isNext, owns⟩
    · obtain ⟨owner, among, owns⟩ := invariant.owned name hash before
      rcases List.mem_append.mp among with earlier | later
      · exact ⟨owner, List.mem_append_left _ earlier, owns⟩
      rcases List.mem_cons.mp later with rfl | behind
      · exact ⟨next, isNext, still owns⟩
      · exact ⟨owner, List.mem_append_right _ (List.mem_cons_of_mem _ behind), owns⟩

theorem Invariant.reaches {crew later : Crew}
    (invariant : Invariant index taken items crew)
    (coherent : Coherent index items)
    (reaches : Crew.Reaches index crew later) :
    Invariant index taken items later := by
  induction reaches with
  | refl => exact invariant
  | tail _ step inductionHypothesis => exact inductionHypothesis.turn coherent step

theorem invariant_start {chunks : List (List Item)}
    (whole : chunks.flatten = items) :
    Invariant index taken items (Crew.start (seeded taken) chunks) := by
  constructor
  case workers =>
    intro worker member
    obtain ⟨chunk, isChunk, rfl⟩ := List.mem_map.mp member
    constructor
    case share =>
      intro item isItem
      have inside : item ∈ chunk := by simpa [Worker.share, Worker.start] using isItem
      rw [← whole]
      exact List.mem_flatten_of_mem isChunk inside
    case outcomes => exact fun each member => by cases member
    case kept => exact fun each member => by cases member
    case task => exact fun task isTask => by cases isTask
  case distinct => exact isDistinct_seeded taken
  case authored =>
    intro name
    constructor
    · exact fun held => (get?_seeded_eq_some held).1
    · intro isTaken
      rw [Crew.start, get?_seeded, if_pos isTaken]
  case owned =>
    intro name hash held
    cases (get?_seeded_eq_some held).2

end Invariant

end Interleaving

end QueryPaging
