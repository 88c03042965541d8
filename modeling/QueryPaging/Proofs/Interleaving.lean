import Mathlib.Logic.Relation
import QueryPaging.Pipeline
import QueryPaging.Proofs.Claiming

/-!
# Workers that take turns

The workers of the second phase share one registry. Each works through its own chunk, and between
any two of its steps at the registry other workers may take theirs. A step claims or gives up one
name.

- `Crew.exists_done`: whatever turns were taken, all work can be finished.
- `wellFounded_step`: and no way of taking turns goes on forever.
- `reaches_workThrough`: a single worker does what working through its items in order does.
-/

namespace QueryPaging

namespace Interleaving

/-- A paginated fragment, and how its parent object is found again. -/
abbrev Item := Processed × Identity

abbrev Outcome := Except Diagnostic Document

def settle (item : Item) (result : Except Fault Document) : Outcome :=
  Pipeline.atStage item.1.document none .embed result

/-- What is still to be done for a query whose name is claimed. -/
inductive Task where
  | claimWrapper (item : Item) (embedding : Embedding)
  /-- The wrapper could not be claimed, so the name of the query is given up. -/
  | releaseQuery (item : Item) (embedding : Embedding) (fault : Fault)

namespace Task

def item : Task → Item
  | .claimWrapper item _ => item
  | .releaseQuery item _ _ => item

def embedding : Task → Embedding
  | .claimWrapper _ embedding => embedding
  | .releaseQuery _ embedding _ => embedding

def steps : Task → Nat
  | .claimWrapper _ _ => 2
  | .releaseQuery _ _ _ => 1

end Task

/-- A worker in the middle of its chunk. -/
structure Worker where
  /-- The items that are finished, in order, each with its outcome. -/
  finished : List (Item × Outcome)
  task : Option Task
  waiting : List Item

namespace Worker

def start (chunk : List Item) : Worker :=
  ⟨[], none, chunk⟩

/-- All items of a worker, in the order of its chunk. -/
def share (worker : Worker) : List Item :=
  worker.finished.map (·.1) ++ (worker.task.map Task.item).toList ++ worker.waiting

def IsDone (worker : Worker) : Prop :=
  worker.task = none ∧ worker.waiting = []

def conclude (worker : Worker) (item : Item) (result : Except Fault Document) : Worker :=
  ⟨worker.finished ++ [(item, settle item result)], none, worker.waiting⟩

/-- How many steps a worker may take at most. -/
def steps (worker : Worker) : Nat :=
  3 * worker.waiting.length + (worker.task.map Task.steps).getD 0

def stepsOf : List Worker → Nat
  | [] => 0
  | worker :: others => worker.steps + stepsOf others

theorem stepsOf_append (before after : List Worker) :
    stepsOf (before ++ after) = stepsOf before + stepsOf after := by
  induction before with
  | nil => simp [stepsOf]
  | cons worker others inductionHypothesis =>
      rw [List.cons_append, stepsOf, stepsOf, inductionHypothesis]
      omega

/-- One step of a worker at the registry. Generating a query touches nothing that is shared, so it
is taken together with the claim that follows. -/
inductive Moves (index : FragmentIndex) :
    Worker → NameRegistry → Worker → NameRegistry → Prop where
  | fails {finished : List (Item × Outcome)} {item : Item} {waiting : List Item}
      {registry : NameRegistry} {fault : Fault}
      (generated : Embedding.generate item.1.document item.2 index = .error fault) :
      Moves index ⟨finished, none, item :: waiting⟩ registry
        (conclude ⟨finished, none, waiting⟩ item (.error fault)) registry
  | missesQuery {finished : List (Item × Outcome)} {item : Item} {waiting : List Item}
      {registry : NameRegistry} {embedding : Embedding} {fault : Fault}
      (generated : Embedding.generate item.1.document item.2 index = .ok embedding)
      (missed : registry.claim embedding.query embedding.hash = .error fault) :
      Moves index ⟨finished, none, item :: waiting⟩ registry
        (conclude ⟨finished, none, waiting⟩ item (.error fault)) registry
  | claimsQuery {finished : List (Item × Outcome)} {item : Item} {waiting : List Item}
      {registry later : NameRegistry} {embedding : Embedding}
      (generated : Embedding.generate item.1.document item.2 index = .ok embedding)
      (claimed : registry.claim embedding.query embedding.hash = .ok later) :
      Moves index ⟨finished, none, item :: waiting⟩ registry
        ⟨finished, some (.claimWrapper item embedding), waiting⟩ later
  | claimsWrapper {finished : List (Item × Outcome)} {item : Item} {waiting : List Item}
      {registry later : NameRegistry} {embedding : Embedding}
      (claimed : registry.claim embedding.wrapper embedding.hash = .ok later) :
      Moves index ⟨finished, some (.claimWrapper item embedding), waiting⟩ registry
        (conclude ⟨finished, none, waiting⟩ item (.ok embedding.document)) later
  | missesWrapper {finished : List (Item × Outcome)} {item : Item} {waiting : List Item}
      {registry : NameRegistry} {embedding : Embedding} {fault : Fault}
      (missed : registry.claim embedding.wrapper embedding.hash = .error fault) :
      Moves index ⟨finished, some (.claimWrapper item embedding), waiting⟩ registry
        ⟨finished, some (.releaseQuery item embedding fault), waiting⟩ registry
  | releasesQuery {finished : List (Item × Outcome)} {item : Item} {waiting : List Item}
      {registry : NameRegistry} {embedding : Embedding} {fault : Fault} :
      Moves index ⟨finished, some (.releaseQuery item embedding fault), waiting⟩ registry
        (conclude ⟨finished, none, waiting⟩ item (.error fault))
        (registry.release embedding.query)

variable {index : FragmentIndex} {worker next : Worker} {registry later : NameRegistry}

@[simp]
theorem share_start (chunk : List Item) :
    (start chunk).share = chunk := by
  simp [start, share]

theorem share_of_isDone (done : worker.IsDone) :
    worker.share = worker.finished.map (·.1) := by
  rw [share, done.1, done.2]
  simp

theorem Moves.share_eq (moves : Moves index worker registry next later) :
    next.share = worker.share := by
  cases moves <;> simp [share, conclude, Task.item]

theorem Moves.steps_lt (moves : Moves index worker registry next later) :
    next.steps < worker.steps := by
  cases moves with
  | claimsQuery generated claimed =>
      simp only [steps, Option.map_some, Option.map_none, Option.getD_some, Option.getD_none,
        Task.steps, List.length_cons]
      omega
  | fails generated => simp [steps, conclude]
  | missesQuery generated missed => simp [steps, conclude]
  | claimsWrapper claimed => simp [steps, conclude, Task.steps]
  | missesWrapper missed => simp [steps, Task.steps]
  | releasesQuery => simp [steps, conclude, Task.steps]

/-- Nobody has to wait for another worker. -/
theorem exists_moves (index : FragmentIndex) (registry : NameRegistry)
    (unfinished : ¬ worker.IsDone) :
    ∃ next later, Moves index worker registry next later := by
  obtain ⟨finished, task, waiting⟩ := worker
  cases task with
  | none =>
      cases waiting with
      | nil => exact absurd ⟨rfl, rfl⟩ unfinished
      | cons item waiting =>
          cases generated : Embedding.generate item.1.document item.2 index with
          | error fault => exact ⟨_, _, .fails generated⟩
          | ok embedding =>
              cases result : registry.claim embedding.query embedding.hash with
              | error fault => exact ⟨_, _, .missesQuery generated result⟩
              | ok claimed => exact ⟨_, _, .claimsQuery generated result⟩
  | some task =>
      cases task with
      | claimWrapper item embedding =>
          cases result : registry.claim embedding.wrapper embedding.hash with
          | error fault => exact ⟨_, _, .missesWrapper result⟩
          | ok both => exact ⟨_, _, .claimsWrapper result⟩
      | releaseQuery item embedding fault => exact ⟨_, _, .releasesQuery⟩

end Worker

/-! ## Crews -/

/-- The workers of a phase with the registry that they share. -/
structure Crew where
  workers : List Worker
  registry : NameRegistry

namespace Crew

def start (registry : NameRegistry) (chunks : List (List Item)) : Crew :=
  ⟨chunks.map Worker.start, registry⟩

def IsDone (crew : Crew) : Prop :=
  ∀ worker ∈ crew.workers, worker.IsDone

/-- What the workers collected, in the order of their chunks. -/
def outcomes (crew : Crew) : List Outcome :=
  crew.workers.flatMap fun worker => worker.finished.map (·.2)

/-- Any one of the workers takes a step. -/
inductive Step (index : FragmentIndex) : Crew → Crew → Prop where
  | turn {before after : List Worker} {worker next : Worker} {registry later : NameRegistry}
      (moves : Worker.Moves index worker registry next later) :
      Step index ⟨before ++ worker :: after, registry⟩ ⟨before ++ next :: after, later⟩

abbrev Reaches (index : FragmentIndex) : Crew → Crew → Prop :=
  Relation.ReflTransGen (Step index)

def steps (crew : Crew) : Nat :=
  Worker.stepsOf crew.workers

variable {index : FragmentIndex} {crew next : Crew}

theorem Step.map_share_eq (step : Step index crew next) :
    next.workers.map Worker.share = crew.workers.map Worker.share := by
  obtain ⟨moves⟩ := step
  simp only [List.map_append, List.map_cons, moves.share_eq]

theorem map_share_start (registry : NameRegistry) (chunks : List (List Item)) :
    (start registry chunks).workers.map Worker.share = chunks := by
  simp [start, Function.comp_def]

theorem Reaches.map_share_eq (reaches : Reaches index crew next) :
    next.workers.map Worker.share = crew.workers.map Worker.share := by
  induction reaches with
  | refl => rfl
  | tail _ step inductionHypothesis => rw [step.map_share_eq, inductionHypothesis]

theorem Step.steps_lt (step : Step index crew next) :
    next.steps < crew.steps := by
  obtain ⟨moves⟩ := step
  have fewer := moves.steps_lt
  simp only [steps, Worker.stepsOf_append, Worker.stepsOf]
  omega

theorem wellFounded_step (index : FragmentIndex) :
    WellFounded fun next crew => Step index crew next :=
  Subrelation.wf Step.steps_lt (measure steps).wf

theorem exists_step (index : FragmentIndex) (unfinished : ¬ crew.IsDone) :
    ∃ next, Step index crew next := by
  simp only [IsDone, Classical.not_forall] at unfinished
  obtain ⟨worker, member, unfinished⟩ := unfinished
  obtain ⟨before, after, split⟩ := List.append_of_mem member
  obtain ⟨next, later, moves⟩ := Worker.exists_moves index crew.registry unfinished
  obtain ⟨workers, registry⟩ := crew
  subst split
  exact ⟨_, .turn moves⟩

/-- Wherever the turns have led, all work can be finished. -/
theorem exists_done (index : FragmentIndex) (crew : Crew) :
    ∃ done, Reaches index crew done ∧ done.IsDone := by
  induction crew using (wellFounded_step index).induction with
  | _ crew inductionHypothesis =>
      by_cases done : crew.IsDone
      · exact ⟨crew, .refl, done⟩
      · obtain ⟨next, step⟩ := exists_step index done
        obtain ⟨finished, reaches, isDone⟩ := inductionHypothesis next step
        exact ⟨finished, .head step reaches, isDone⟩

end Crew

/-! ## A single worker -/

section Single

open Pipeline

variable {index : FragmentIndex}

theorem reaches_single {worker next : Worker} {registry later : NameRegistry}
    (moves : Worker.Moves index worker registry next later) :
    Crew.Step index ⟨[worker], registry⟩ ⟨[next], later⟩ := by
  have step : Crew.Step index ⟨[] ++ worker :: [], registry⟩ ⟨[] ++ next :: [], later⟩ :=
    .turn moves
  exact step

/-- Without others in between, the steps for one item are an embedding. -/
theorem reaches_embedOne (index : FragmentIndex) (finished : List (Item × Outcome)) (item : Item)
    (waiting : List Item) (registry : NameRegistry) :
    Crew.Reaches index ⟨[⟨finished, none, item :: waiting⟩], registry⟩
      ⟨[⟨finished ++ [(item, (embedOne index registry item).1)], none, waiting⟩],
        (embedOne index registry item).2⟩ := by
  rw [embedOne, Embedding.embed]
  cases generated : Embedding.generate item.1.document item.2 index with
  | error fault => exact .single (reaches_single (.fails generated))
  | ok embedding =>
      have claims := Embedding.claims_claimNames embedding registry
      simp only
      cases result : embedding.claimNames registry with
      | mk outcome later =>
          rw [result] at claims
          cases claims with
          | queryTaken first => exact .single (reaches_single (.missesQuery generated first))
          | @wrapperTaken claimed fault first second =>
              have claims : Crew.Step index ⟨[⟨finished, none, item :: waiting⟩], registry⟩
                  ⟨[⟨finished, some (.claimWrapper item embedding), waiting⟩], claimed⟩ :=
                reaches_single (.claimsQuery generated first)
              have misses : Crew.Step index
                  ⟨[⟨finished, some (.claimWrapper item embedding), waiting⟩], claimed⟩
                  ⟨[⟨finished, some (.releaseQuery item embedding fault), waiting⟩], claimed⟩ :=
                reaches_single (.missesWrapper second)
              exact .head claims (.head misses (.single (reaches_single .releasesQuery)))
          | @both claimed later first second =>
              have claims : Crew.Step index ⟨[⟨finished, none, item :: waiting⟩], registry⟩
                  ⟨[⟨finished, some (.claimWrapper item embedding), waiting⟩], claimed⟩ :=
                reaches_single (.claimsQuery generated first)
              exact .head claims (.single (reaches_single (.claimsWrapper second)))

/-- A single worker does what working through its items in order does. The induction is on the
items that wait. -/
theorem reaches_workThrough (index : FragmentIndex) (items : List Item)
    (finished : List (Item × Outcome)) (registry : NameRegistry) :
    Crew.Reaches index ⟨[⟨finished, none, items⟩], registry⟩
      ⟨[⟨finished ++ items.zip (Workers.workThrough (embedOne index) registry items).1, none, []⟩],
        (Workers.workThrough (embedOne index) registry items).2⟩ := by
  induction items generalizing finished registry with
  | nil =>
      rw [List.zip_nil_left, List.append_nil]
      exact .refl
  | cons item items inductionHypothesis =>
      have first := reaches_embedOne index finished item items registry
      have others := inductionHypothesis
        (finished ++ [(item, (embedOne index registry item).1)]) (embedOne index registry item).2
      rw [List.append_assoc] at others
      exact first.trans others

end Single

end Interleaving

end QueryPaging
