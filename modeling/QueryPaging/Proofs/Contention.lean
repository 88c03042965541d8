import QueryPaging.Proofs.Reporting

/-!
# Taking turns at one name

Where there is a worker for each item, any of them may come first. The worker that claims a name
first has it, and the others find it taken.

- `exists_done_kept`: an item whose names are free has them if it comes first.
- `exists_done_blocked`: it has not if another comes first that wants its name for another hash.
- `exists_done_told`: of two items that have no chance, one is told so in either of two ways.
-/

namespace QueryPaging

namespace Workers

variable {Item : Type}

theorem chunks_one (items : List Item) :
    chunks 1 items = items.map ([·]) := by
  induction items with
  | nil => rw [chunks, List.map_nil]
  | cons item others inductionHypothesis =>
      rw [chunks, Nat.sub_self, List.take_zero, List.drop_zero, inductionHypothesis]
      rfl

theorem split_length {items : List Item}
    (some : items ≠ []) :
    split items.length items = items.map ([·]) := by
  have positive : 0 < items.length := List.length_pos_iff.mpr some
  by_cases many : 2 ≤ items.length
  · have size : chunkSize items.length items.length = 1 := by
      rw [chunkSize]
      exact Nat.div_eq_of_lt_le (by omega) (by omega)
    have least : max items.length 1 = items.length := by omega
    have shared : ¬ (items.length = 1 ∨ items.length < 2) := by omega
    simp only [split, least, if_neg shared, size, chunks_one]
  · obtain ⟨item, rfl⟩ := List.length_eq_one_iff.mp (by omega : items.length = 1)
    rfl

end Workers

namespace Interleaving

open NameRegistry

/-- One worker for each item, before any of them has taken a turn. -/
def singles (taken : List String) (items : List Item) : Crew :=
  Crew.start (seeded taken) (items.map ([·]))

/-! ## Ways of taking turns -/

namespace Crew

variable {index : FragmentIndex} {crew start : Crew} {worker next : Worker}
  {later : NameRegistry}

theorem exists_step_of_mem
    (member : worker ∈ crew.workers)
    (moves : Worker.Moves index worker crew.registry next later) :
    ∃ after : Crew, Step index crew after ∧ after.registry = later ∧ next ∈ after.workers ∧
      ∀ other ∈ crew.workers, other ≠ worker → other ∈ after.workers := by
  obtain ⟨workers, registry⟩ := crew
  obtain ⟨before, behind, rfl⟩ := List.append_of_mem member
  refine ⟨_, .turn moves, rfl, by simp, ?_⟩
  intro other among different
  rcases List.mem_append.mp among with earlier | rest
  · exact List.mem_append_left _ earlier
  · have inside := (List.mem_cons.mp rest).resolve_left different
    exact List.mem_append_right _ (List.mem_cons_of_mem _ inside)

theorem not_isDone_of_moves {registry : NameRegistry}
    (moves : Worker.Moves index worker registry next later) :
    ¬ worker.IsDone := by
  rintro ⟨noTask, nothing⟩
  have fewer := moves.steps_lt
  have none : worker.steps = 0 := by
    rw [Worker.steps, noTask, nothing]
    rfl
  omega

theorem mem_of_reaches {done : Crew}
    (reaches : Reaches index crew done)
    (member : worker ∈ crew.workers)
    (isDone : worker.IsDone) :
    worker ∈ done.workers := by
  induction reaches with
  | refl => exact member
  | tail _ step inductionHypothesis =>
      obtain ⟨moves⟩ := step
      rcases List.mem_append.mp inductionHypothesis with earlier | rest
      · exact List.mem_append_left _ earlier
      rcases List.mem_cons.mp rest with rfl | behind
      · exact absurd isDone (not_isDone_of_moves moves)
      · exact List.mem_append_right _ (List.mem_cons_of_mem _ behind)

/-- What a worker finished is among the results, whichever turns are taken from there. -/
theorem exists_done_of_mem {each : Item × Outcome}
    (reaches : Reaches index start crew)
    (member : worker ∈ crew.workers)
    (isDone : worker.IsDone)
    (finished : each ∈ worker.finished) :
    ∃ done, Reaches index start done ∧ done.IsDone ∧ each ∈ done.results := by
  obtain ⟨done, further, allDone⟩ := exists_done index crew
  have stays := mem_of_reaches further member isDone
  exact ⟨done, reaches.trans further, allDone, List.mem_flatMap.mpr ⟨worker, stays, finished⟩⟩

end Crew

section Turns

variable {index : FragmentIndex} {taken : List String} {items : List Item}
  {item other : Item} {embedding rival : Embedding}

theorem start_mem_singles
    (member : item ∈ items) :
    Worker.start [item] ∈ (singles taken items).workers :=
  List.mem_map_of_mem (List.mem_map_of_mem member)

/-- An item whose names are free has them if its worker takes its turns first. -/
theorem exists_done_kept
    (member : item ∈ items)
    (made : Makes index item embedding)
    (free : IsFree taken embedding) :
    ∃ done, Crew.Reaches index (singles taken items) done ∧ done.IsDone ∧
      (item, settle item (.ok embedding.document)) ∈ done.results := by
  have first := claim_of_free embedding.hash (get?_seeded_eq_none free.query)
  have different := Embedding.query_ne_wrapper made made
  have stillFree := get?_of_claim first embedding.wrapper
  rw [if_neg different, get?_seeded_eq_none free.wrapper] at stillFree
  have second := claim_of_free embedding.hash stillFree
  obtain ⟨crew, step, registry, isClaiming, _⟩ :=
    Crew.exists_step_of_mem (start_mem_singles member) (.claimsQuery made first)
  rw [← registry] at second
  obtain ⟨both, lastStep, _, isFinished, _⟩ :=
    Crew.exists_step_of_mem isClaiming (.claimsWrapper second)
  exact Crew.exists_done_of_mem (.head step (.single lastStep)) isFinished ⟨rfl, rfl⟩
    List.mem_cons_self

/-- An item finds its name taken if another claims it first for another hash. -/
theorem exists_done_blocked
    (member : item ∈ items) (isOther : other ∈ items)
    (made : Makes index item embedding) (makes : Makes index other rival)
    (sameQuery : embedding.query.text = rival.query.text)
    (free : embedding.query.text ∉ taken)
    (different : embedding.hash ≠ rival.hash) :
    ∃ done, Crew.Reaches index (singles taken items) done ∧ done.IsDone ∧
      (item, settle item (.error (.nameCollision embedding.query))) ∈ done.results := by
  have apart : Worker.start [item] ≠ Worker.start [other] := by
    intro same
    have sameItem : item = other := by simpa [Worker.start] using same
    subst sameItem
    have sameEmbedding := Except.ok.inj (made.symm.trans makes)
    exact different (congrArg Embedding.hash sameEmbedding)
  have first := claim_of_free rival.hash (get?_seeded_eq_none (sameQuery ▸ free))
  have held := get?_of_claim first embedding.query
  rw [if_pos sameQuery.symm] at held
  have missed := claim_eq_error_iff.mpr
    ⟨rfl, _, held, by simpa using Ne.symm different⟩
  obtain ⟨crew, step, registry, _, others⟩ :=
    Crew.exists_step_of_mem (start_mem_singles isOther) (.claimsQuery makes first)
  have waits := others _ (start_mem_singles member) apart
  rw [← registry] at missed
  obtain ⟨blocked, lastStep, _, isFinished, _⟩ :=
    Crew.exists_step_of_mem waits (.missesQuery made missed)
  exact Crew.exists_done_of_mem (.head step (.single lastStep)) isFinished ⟨rfl, rfl⟩
    List.mem_cons_self

end Turns

/-! ## Two items that nobody can embed -/

section Pair

variable {index : FragmentIndex} {taken : List String} {item other : Item}
  {embedding rival : Embedding} {registry later : NameRegistry}

/-- The workers of a crew, two of which are picked out. -/
def pairIn (before between after : List Worker) (first second : Worker) : List Worker :=
  before ++ first :: (between ++ second :: after)

theorem Crew.Reaches.first (before between after : List Worker) {worker next : Worker}
    (second : Worker)
    (reaches : Crew.Reaches index ⟨[worker], registry⟩ ⟨[next], later⟩) :
    Crew.Reaches index ⟨pairIn before between after worker second, registry⟩
      ⟨pairIn before between after next second, later⟩ := by
  have framed := reaches.frame before (between ++ second :: after)
  simpa [pairIn] using framed

theorem Crew.Reaches.second (before between after : List Worker) {worker next : Worker}
    (first : Worker)
    (reaches : Crew.Reaches index ⟨[worker], registry⟩ ⟨[next], later⟩) :
    Crew.Reaches index ⟨pairIn before between after first worker, registry⟩
      ⟨pairIn before between after first next, later⟩ := by
  have framed := reaches.frame (before ++ first :: between) after
  simpa [pairIn] using framed

/-- Two workers that are done do not matter to what the others come to. -/
theorem exists_outcomes_around (index : FragmentIndex) (registry : NameRegistry)
    {before between after : List Worker}
    (empty : ∀ worker ∈ before ++ (between ++ after), worker.task = none) :
    ∃ earlier middle late : List Outcome, ∀ first second : Worker, first.IsDone → second.IsDone →
      ∃ done, Crew.Reaches index ⟨pairIn before between after first second, registry⟩ done ∧
        done.IsDone ∧
        done.outcomes = earlier ++ (first.finished.map (·.2) ++
          (middle ++ (second.finished.map (·.2) ++ late))) := by
  let ahead := Workers.workThrough (Worker.worked index) registry before
  let amid := Workers.workThrough (Worker.worked index) ahead.2 between
  let behind := Workers.workThrough (Worker.worked index) amid.2 after
  let collected := fun workers : List Worker => workers.flatMap fun worker =>
    worker.finished.map (·.2)
  refine ⟨collected ahead.1, collected amid.1, collected behind.1, ?_⟩
  intro first second firstDone secondDone
  have allEmpty : ∀ worker ∈ pairIn before between after first second, worker.task = none := by
    intro worker member
    simp only [pairIn, List.mem_append, List.mem_cons] at member
    rcases member with earlier | rfl | middle | rfl | late
    · exact empty worker (by simp [earlier])
    · exact firstDone.1
    · exact empty worker (by simp [middle])
    · exact secondDone.1
    · exact empty worker (by simp [late])
  refine ⟨_, Crew.reaches_worked registry allEmpty, Crew.isDone_worked _ _ _, ?_⟩
  have parts : (Workers.workThrough (Worker.worked index) registry
      (pairIn before between after first second)).1 =
        ahead.1 ++ first :: (amid.1 ++ second :: behind.1) := by
    simp only [pairIn, Workers.workThrough_append, Workers.workThrough,
      Worker.worked_of_isDone _ firstDone, Worker.worked_of_isDone _ secondDone]
    rfl
  simp only [Crew.outcomes, parts, List.flatMap_append, List.flatMap_cons]
  rfl

/-- A worker that has finished one item, the name of which it found taken. -/
def told (item : Item) (name : String) : Worker :=
  ⟨[(item, settle item (.error (.nameCollision name)))], none, []⟩

theorem reaches_claiming
    (made : Makes index item embedding)
    (claimed : (seeded taken).claim embedding.query embedding.hash = .ok later) :
    Crew.Reaches index ⟨[Worker.start [item]], seeded taken⟩
      ⟨[⟨[], some (.claimWrapper item embedding), []⟩], later⟩ :=
  .single (reaches_single (.claimsQuery made claimed))

/-- A worker gives up the name of a query if an author has the one of the wrapper. -/
theorem reaches_told (index : FragmentIndex) (item : Item)
    (takenWrapper : embedding.wrapper.text ∈ taken)
    (free : embedding.query.text ∉ taken)
    (claimed : (seeded taken).claim embedding.query embedding.hash = .ok later) :
    Crew.Reaches index ⟨[⟨[], some (.claimWrapper item embedding), []⟩], later⟩
      ⟨[told item embedding.wrapper], seeded taken⟩ := by
  have isAuthored := (authored_of_claim claimed embedding.wrapper).mpr
    (by rw [get?_seeded, if_pos takenWrapper])
  have missed := claim_eq_error_iff.mpr
    ⟨rfl, .authored, isAuthored, (by simp : Claim.authored ≠ .generated embedding.hash)⟩
  have misses : Crew.Step index ⟨[⟨[], some (.claimWrapper item embedding), []⟩], later⟩
      ⟨[⟨[], some (.releaseQuery item embedding (.nameCollision embedding.wrapper)), []⟩],
        later⟩ := reaches_single (.missesWrapper missed)
  have releases : Crew.Step index
      ⟨[⟨[], some (.releaseQuery item embedding (.nameCollision embedding.wrapper)), []⟩], later⟩
      ⟨[told item embedding.wrapper], later.release embedding.query⟩ :=
    reaches_single .releasesQuery
  rw [release_of_claim (get?_seeded_eq_none free) claimed] at releases
  exact .head misses (.single releases)

section Both

variable (made : Makes index item embedding) (makes : Makes index other rival)
  (free : embedding.query.text ∉ taken)
  (takenWrapper : embedding.wrapper.text ∈ taken) (rivalTaken : rival.wrapper.text ∈ taken)
  (sameQuery : embedding.query.text = rival.query.text)
  (different : embedding.hash ≠ rival.hash)

include made makes free takenWrapper rivalTaken sameQuery different

/-- Of two items with one name, neither of which can have its wrapper, the second is told so, or it
is told that the name of its query is taken. The registry is left as it was. -/
theorem reaches_both_told (before between after : List Worker) {name : String}
    (isName : name = rival.wrapper.text ∨ name = rival.query.text) :
    Crew.Reaches index
      ⟨pairIn before between after (Worker.start [item]) (Worker.start [other]), seeded taken⟩
      ⟨pairIn before between after (told item embedding.wrapper) (told other name),
        seeded taken⟩ := by
  have claimed := claim_of_free embedding.hash (get?_seeded_eq_none free)
  have claims := reaches_claiming made claimed
  have givesUp := reaches_told index item takenWrapper free claimed
  rcases isName with rfl | rfl
  -- The first gives up before the second starts.
  · have rivalFree : rival.query.text ∉ taken := sameQuery ▸ free
    have rivalClaimed := claim_of_free rival.hash (get?_seeded_eq_none rivalFree)
    have rivalClaims := reaches_claiming makes rivalClaimed
    have rivalGivesUp := reaches_told index other rivalTaken rivalFree rivalClaimed
    have firstTold := Crew.Reaches.first before between after (Worker.start [other])
      (claims.trans givesUp)
    have secondTold := Crew.Reaches.second before between after (told item embedding.wrapper)
      (rivalClaims.trans rivalGivesUp)
    exact firstTold.trans secondTold
  -- The second asks while the first still holds the name.
  · have held := get?_of_claim claimed rival.query
    rw [if_pos sameQuery] at held
    have missed := claim_eq_error_iff.mpr ⟨rfl, _, held, by simpa using different⟩
    have misses : Crew.Reaches index ⟨[Worker.start [other]], _⟩ ⟨[told other rival.query], _⟩ :=
      .single (reaches_single (.missesQuery makes missed))
    have firstClaims := claims.first before between after (Worker.start [other])
    have secondMisses := misses.second before between after
      ⟨[], some (.claimWrapper item embedding), []⟩
    have firstTold := givesUp.first before between after (told other rival.query)
    exact (firstClaims.trans secondMisses).trans firstTold

theorem exists_done_told (before between after : List Item) :
    ∃ earlier late : List Outcome, ∀ name, name = rival.wrapper.text ∨ name = rival.query.text →
      ∃ done, Crew.Reaches index
          (singles taken (before ++ item :: (between ++ other :: after))) done ∧ done.IsDone ∧
        done.outcomes = earlier ++ settle other (.error (.nameCollision name)) :: late := by
  let starts := fun items : List Item => (items.map ([·])).map Worker.start
  have isStart : singles taken (before ++ item :: (between ++ other :: after)) =
      ⟨pairIn (starts before) (starts between) (starts after) (Worker.start [item])
        (Worker.start [other]), seeded taken⟩ := by
    simp [singles, Crew.start, pairIn, starts]
  have empty : ∀ worker ∈ starts before ++ (starts between ++ starts after),
      worker.task = none := by
    intro worker member
    simp only [starts, ← List.map_append] at member
    obtain ⟨chunk, _, rfl⟩ := List.mem_map.mp member
    rfl
  obtain ⟨earlier, middle, late, around⟩ := exists_outcomes_around index (seeded taken) empty
  refine ⟨earlier ++ (settle item (.error (.nameCollision embedding.wrapper)) :: middle), late,
    fun name isName => ?_⟩
  obtain ⟨done, further, isDone, outcomes⟩ :=
    around (told item embedding.wrapper) (told other name) ⟨rfl, rfl⟩ ⟨rfl, rfl⟩
  have reaches := reaches_both_told made makes free takenWrapper rivalTaken sameQuery different
    (starts before) (starts between) (starts after) isName
  rw [isStart]
  refine ⟨done, reaches.trans further, isDone, ?_⟩
  rw [outcomes, List.append_assoc]
  rfl

end Both

end Pair

end Interleaving

end QueryPaging
