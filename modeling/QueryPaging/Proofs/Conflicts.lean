import QueryPaging.Proofs.Contention
import QueryPaging.Proofs.Precedence

/-!
# Conflicts between fragments of one name

Where the workers take turns, whoever claims a name first has it. So who has it depends on the
turns, unless all that want the name want it for the same hash; and those that want it for the same
hash all have it, whether their queries are the same or not.

- `Pipeline.hasNoConflicts_of_alwaysResolves`: where conflicts are always resolved in order, there
  are none.
- `Pipeline.alwaysResolves_of_hasNoConflicts`: where there are none, all fragments come out as they
  would alone.
-/

namespace QueryPaging

namespace Interleaving

section Facts

variable (index : FragmentIndex) (taken : List String) (items : List Item)

/-- That all items that want a name which no author has want it for the same hash, and for the same
query if no author is in their way at all. -/
def AreUndisputed : Prop :=
  ∀ first ∈ items, ∀ second ∈ items, ∀ left right,
    Makes index first left → Makes index second right →
    left.query.text = right.query.text → left.query.text ∉ taken →
    left.hash = right.hash ∧
      (IsFree taken left → IsFree taken right → left.document.SameContent right.document)

end Facts

end Interleaving

namespace Pipeline

open QueryPaging.Embedding Interleaving

section Batch

variable (schema : Schema) (config : IdentityConfig) (documents : List Document)

def Resolves (same : Document → Document → Prop) (results : List (Item × Outcome)) : Prop :=
  IsResolved (indexOf schema config documents) (documents.map (·.name)) same results

/-- Whether the workers come to one report, whatever turns they take, and resolve the conflicts of
the batch in its order. -/
def AlwaysResolves (report : Report) : Prop :=
  ∀ workers crew, MayStand schema config documents workers crew → crew.IsDone →
    reportFrom schema config documents crew.outcomes = report ∧
      Resolves schema config documents Document.SameContent crew.results

def HasNoConflicts : Prop :=
  AreUndisputed (indexOf schema config documents) (documents.map (·.name))
    (paginated schema config documents)

variable {schema config documents} {report : Report}

theorem crewOf_length
    (some : paginated schema config documents ≠ []) :
    crewOf schema config documents (paginated schema config documents).length =
      singles (documents.map (·.name)) (paginated schema config documents) := by
  rw [crewOf, Workers.split_length some]
  rfl

/-! ### Where conflicts are always resolved -/

section Always

variable (always : AlwaysResolves schema config documents report)

include always

/-- What a worker for each item may come to. -/
theorem AlwaysResolves.singles {done : Crew}
    (some : paginated schema config documents ≠ [])
    (reaches : Crew.Reaches (indexOf schema config documents)
      (singles (documents.map (·.name)) (paginated schema config documents)) done)
    (isDone : done.IsDone) :
    reportFrom schema config documents done.outcomes = report ∧
      Resolves schema config documents Document.SameContent done.results ∧
      done.results.map (·.1) = paginated schema config documents := by
  have stands : MayStand schema config documents
      (paginated schema config documents).length done := by
    rw [MayStand, crewOf_length some]
    exact reaches
  obtain ⟨isReport, resolved⟩ := always _ done stands isDone
  exact ⟨isReport, resolved, (results_of_done stands isDone).1⟩

/-- All that contend for a name have the query of the first. -/
theorem AlwaysResolves.sameContent {before after : List Item} {first item : Item}
    {leader embedding : Embedding}
    (isItems : paginated schema config documents = before ++ first :: after)
    (leads : Leads (indexOf schema config documents) (documents.map (·.name)) before first leader)
    (member : item ∈ paginated schema config documents)
    (contends : Contends (indexOf schema config documents) (documents.map (·.name)) item
      embedding)
    (sameQuery : leader.query.text = embedding.query.text) :
    embedding.document.SameContent leader.document := by
  by_contra different
  -- If its worker is the first to take its turns, the item has the name that it should be refused.
  obtain ⟨done, reaches, isDone, kept⟩ := exists_done_kept member contends.made contends.free
  obtain ⟨_, resolved, items⟩ := always.singles (List.ne_nil_of_mem member) reaches isDone
  have refused := (resolved.outcome (fun _ => rfl) (items.trans isItems) leads kept contends
    sameQuery).2 different
  cases refused

section Rivals

variable {item other : Item} {embedding rival : Embedding}
  (member : item ∈ paginated schema config documents)
  (isOther : other ∈ paginated schema config documents)
  (made : Makes (indexOf schema config documents) item embedding)
  (makes : Makes (indexOf schema config documents) other rival)
  (sameQuery : embedding.query.text = rival.query.text)
  (free : embedding.query.text ∉ documents.map (·.name))
  (different : embedding.hash ≠ rival.hash)

include member isOther made makes sameQuery free different

/-- An item that another can block is blocked by an author anyway. -/
theorem AlwaysResolves.takenWrapper :
    embedding.wrapper.text ∈ documents.map (·.name) := by
  by_contra freeWrapper
  have contends : Contends (indexOf schema config documents) (documents.map (·.name)) item
      embedding := ⟨made, free, freeWrapper⟩
  obtain ⟨before, first, after, leader, isItems, leads, isLeader⟩ := exists_leads member contends
  have same := always.sameContent isItems leads member contends isLeader
  obtain ⟨done, reaches, isDone, blocked⟩ :=
    exists_done_blocked member isOther made makes sameQuery free different
  obtain ⟨_, resolved, items⟩ := always.singles (List.ne_nil_of_mem member) reaches isDone
  have kept := (resolved.outcome (fun _ => rfl) (items.trans isItems) leads blocked contends
    isLeader).1 same
  cases kept

omit isOther member in
/-- And then the report shows which of two came first. -/
theorem AlwaysResolves.not_both {before between after : List Item}
    (isItems : paginated schema config documents =
      before ++ item :: (between ++ other :: after))
    (takenWrapper : embedding.wrapper.text ∈ documents.map (·.name))
    (rivalTaken : rival.wrapper.text ∈ documents.map (·.name)) :
    False := by
  have some : paginated schema config documents ≠ [] := by simp [isItems]
  obtain ⟨earlier, late, told⟩ := exists_done_told made makes free takenWrapper rivalTaken
    sameQuery different before between after
  rw [← isItems] at told
  have reports : ∀ name, name = rival.wrapper.text ∨ name = rival.query.text →
      reportFrom schema config documents
        (earlier ++ settle other (.error (.nameCollision name)) :: late) = report := by
    intro name isName
    obtain ⟨done, reaches, isDone, outcomes⟩ := told name isName
    rw [← outcomes]
    exact (always.singles some reaches isDone).1
  have both := (reports _ (Or.inl rfl)).trans (reports _ (Or.inr rfl)).symm
  have diagnostics := congrArg Report.diagnostics both
  simp only [reportFrom, List.filterMap_append, List.append_cancel_left_eq, settle, atStage,
    List.filterMap_cons, diagnostic?, List.cons.injEq, and_true] at diagnostics
  have sameName : rival.wrapper.text = rival.query.text := by
    simpa [Diagnostic.ofFault] using diagnostics
  exact query_ne_wrapper makes makes sameName.symm

end Rivals

theorem hasNoConflicts_of_alwaysResolves :
    HasNoConflicts schema config documents := by
  intro first isFirst second isSecond left right makesLeft makesRight sameQuery free
  have freeRight : right.query.text ∉ documents.map (·.name) := sameQuery ▸ free
  constructor
  · by_contra different
    have takenLeft := always.takenWrapper isFirst isSecond makesLeft makesRight sameQuery free
      different
    have takenRight := always.takenWrapper isSecond isFirst makesRight makesLeft sameQuery.symm
      freeRight (Ne.symm different)
    have apart : second ≠ first := by
      rintro rfl
      have same := Except.ok.inj (makesLeft.symm.trans makesRight)
      exact different (congrArg Embedding.hash same)
    obtain ⟨before, after, isItems⟩ := List.append_of_mem isFirst
    rw [isItems] at isSecond
    rcases List.mem_append.mp isSecond with earlier | rest
    · obtain ⟨ahead, between, rfl⟩ := List.append_of_mem earlier
      rw [List.append_assoc, List.cons_append] at isItems
      exact always.not_both makesRight makesLeft sameQuery.symm freeRight (Ne.symm different)
        isItems takenRight takenLeft
    · have behind := (List.mem_cons.mp rest).resolve_left apart
      obtain ⟨between, late, rfl⟩ := List.append_of_mem behind
      exact always.not_both makesLeft makesRight sameQuery free different isItems takenLeft
        takenRight
  · intro freeLeft freeRightBoth
    obtain ⟨before, head, after, leader, isItems, leads, isLeader⟩ :=
      exists_leads isFirst ⟨makesLeft, freeLeft⟩
    have sameLeft := always.sameContent isItems leads isFirst ⟨makesLeft, freeLeft⟩ isLeader
    have sameRight := always.sameContent isItems leads isSecond ⟨makesRight, freeRightBoth⟩
      (isLeader.trans sameQuery)
    exact sameLeft.trans sameRight.symm

end Always

/-! ### Where there are no conflicts -/

section Undisputed

variable (undisputed : HasNoConflicts schema config documents)

include undisputed

theorem outcome_of_hasNoConflicts {workers : Nat} {crew : Crew} {each : Item × Outcome}
    (stands : MayStand schema config documents workers crew)
    (isDone : crew.IsDone)
    (member : each ∈ crew.results) :
    each.2 = alone (indexOf schema config documents) (documents.map (·.name)) each.1 := by
  obtain ⟨items, known⟩ := results_of_done stands isDone
  have among : each.1 ∈ paginated schema config documents := by
    rw [← items]
    exact List.mem_map_of_mem member
  refine (known each member).here ?_
  intro embedding made free other isOther rival makes sameQuery
  exact (undisputed each.1 among other isOther embedding rival made makes sameQuery.symm
    free).1.symm

theorem outcomes_of_hasNoConflicts {workers : Nat} {crew : Crew}
    (stands : MayStand schema config documents workers crew)
    (isDone : crew.IsDone) :
    crew.outcomes = (paginated schema config documents).map
      (alone (indexOf schema config documents) (documents.map (·.name))) := by
  obtain ⟨items, _⟩ := results_of_done stands isDone
  have outcome : ∀ each ∈ crew.results, each.2 =
      (alone (indexOf schema config documents) (documents.map (·.name)) ∘ (·.1)) each :=
    fun each member => outcome_of_hasNoConflicts undisputed stands isDone member
  rw [← items, List.map_map, ← crew.map_snd_results, List.map_congr_left outcome]

theorem alwaysResolves_of_hasNoConflicts :
    AlwaysResolves schema config documents
      (reportFrom schema config documents (sequential schema config documents).1) := by
  intro workers crew stands isDone
  obtain ⟨single, singleStands, singleDone, singleOutcomes⟩ :=
    exists_mayStand_inOrder schema config documents 1
  constructor
  · rw [← singleOutcomes, outcomes_of_hasNoConflicts undisputed stands isDone,
      outcomes_of_hasNoConflicts undisputed singleStands singleDone]
  · intro before first after leader split leads
    have inResults : ∀ each ∈ before ++ first :: after, each ∈ crew.results := by
      rw [split]
      exact fun each member => member
    have outcome : ∀ each ∈ first :: after, ∀ embedding,
        Contends (indexOf schema config documents) (documents.map (·.name)) each.1 embedding →
        each.1 ∈ paginated schema config documents ∧
          each.2 = settle each.1 (.ok embedding.document) := by
      intro each member embedding contends
      have result := inResults each (List.mem_append_right before member)
      constructor
      · rw [← (results_of_done stands isDone).1]
        exact List.mem_map_of_mem result
      · rw [outcome_of_hasNoConflicts undisputed stands isDone result]
        exact alone_of_isFree contends.made contends.free
    obtain ⟨isFirst, firstOutcome⟩ := outcome first List.mem_cons_self leader leads.contends
    refine ⟨firstOutcome, fun later member rival contends sameQuery => ?_⟩
    obtain ⟨isLater, laterOutcome⟩ := outcome later (List.mem_cons_of_mem _ member) rival contends
    have same := (undisputed later.1 isLater first.1 isFirst rival leader contends.made
      leads.contends.made sameQuery contends.free.query).2 contends.free leads.contends.free
    exact ⟨fun _ => laterOutcome, fun different => absurd same different⟩

end Undisputed

end Batch

/-- What a single worker comes to, one item after the other. -/
def resultsInTurn (schema : Schema) (config : IdentityConfig) (documents : List Document) :
    List (Item × Outcome) :=
  inTurn (indexOf schema config documents) (NameRegistry.seeded (documents.map (·.name)))
    (paginated schema config documents)

theorem map_snd_resultsInTurn (schema : Schema) (config : IdentityConfig)
    (documents : List Document) :
    (resultsInTurn schema config documents).map (·.2) = (sequential schema config documents).1 := by
  have lengths := Workers.length_workThrough (embedOne (indexOf schema config documents))
    (NameRegistry.seeded (documents.map (·.name))) (paginated schema config documents)
  rw [sequential, Workers.mapShared_eq]
  exact List.map_snd_zip (by omega)

/-- A single worker resolves the conflicts of a batch in its order, as far as hashes tell queries
apart. Any number of workers does so, for all queries and with the same report, just where there are
no conflicts. -/
theorem alwaysResolves_iff {schema : Schema} {config : IdentityConfig} {batch : List Document}
    {report : Report}
    (result : run schema config 1 batch = .ok report) :
    report = reportFrom schema config (authored batch)
        ((resultsInTurn schema config (authored batch)).map (·.2)) ∧
      (TellApart ((paginated schema config (authored batch)).map
          (callOf (indexOf schema config (authored batch)))) →
        Resolves schema config (authored batch) SameHash
          (resultsInTurn schema config (authored batch))) ∧
      (AlwaysResolves schema config (authored batch) report ↔
        HasNoConflicts schema config (authored batch)) := by
  have isReport := reportFrom_of_run result
  refine ⟨?_, fun tells => isResolved_inTurn tells, hasNoConflicts_of_alwaysResolves, ?_⟩
  · rw [map_snd_resultsInTurn, ← isReport]
  · intro undisputed
    rw [isReport]
    exact alwaysResolves_of_hasNoConflicts undisputed

end Pipeline

/-! ## Two fragments of one name -/

namespace Sample

/-- A page fragment that passes a value to the part. -/
def contestant (passed : Value) : Document :=
  Document.ofDefinition "sample.graphql"
    (.fragment ⟨page, queryType, [],
      [itemsField none (.int "10") [mark],
        .spread ⟨part, [⟨PassDirective.withName, [⟨size, passed⟩]⟩]⟩], none⟩)

def contested : List Document :=
  [contestant (.int "5"), contestant (.int "6"),
    Document.ofDefinition "sample.graphql" partFragment]

def contestedFragment (passed : Value) : Fragment :=
  { pagedFragment with
    selections := pagedFragment.selections.take 1
      ++ [.spread ⟨part, [⟨PassDirective.withName, [⟨size, passed⟩]⟩]⟩] }

theorem paginated_contested :
    Pipeline.paginated schema .standard contested =
      [(Pipeline.entryOf schema .standard (contestant (.int "5")), .root queryType),
        (Pipeline.entryOf schema .standard (contestant (.int "6")), .root queryType)] := by
  rfl

theorem variableSet_contestant (passed : Value) :
    (Pipeline.entryOf schema .standard (contestant passed)).document.variableSet =
      .ok pagedVariables := by
  have primary : (Pipeline.entryOf schema .standard (contestant passed)).document.primary? =
      some (.fragment (contestedFragment passed)) := by rfl
  rw [Document.variableSet_eq primary]
  exact Document.ofFragment_declared pagedVariables
    { contestedFragment passed with directives := [] }

theorem reachable_contestedFragment (passed : Value) :
    (Pipeline.indexOf schema .standard contested).reachable (contestedFragment passed) =
      .ok [partBody] := by
  have toPart : spreadNamesOf (contestedFragment passed).selections = [part] := by rfl
  have toNone : spreadNamesOf partBody.selections = [] := by rfl
  have different : part ≠ page := by decide
  exact FragmentIndex.reachable_of_leaf toPart different (by rfl) toNone

def contestedGeneration (passed : Value) :
    Generation (Pipeline.entryOf schema .standard (contestant passed)).document
      (.root queryType) (Pipeline.indexOf schema .standard contested) :=
  generation.varied
    (by rfl : (Pipeline.entryOf schema .standard (contestant passed)).document.fragment? =
      some (contestedFragment passed))
    rfl (variableSet_contestant passed) (reachable_contestedFragment passed)

theorem not_sameContent_contested :
    ¬ (contestedGeneration (.int "5")).outcome.SameContent
      (contestedGeneration (.int "6")).outcome := by
  have sent : (contestedGeneration (.int "5")).outcome.SameWhenSent
      (contestedGeneration (.int "6")).outcome := by rfl
  rw [Generation.sameContent_outcome_iff _ _ sent]
  decide

theorem not_hasNoConflicts_contested :
    ¬ Pipeline.HasNoConflicts schema .standard contested := by
  intro undisputed
  have apart : ∀ name ∈ contested.map (·.name), name.toList.take 5 ≠ "Page_".toList := by decide
  obtain ⟨freeQuery, freeWrapper⟩ := free_names apart
  have unauthored : ∀ name, (NameRegistry.seeded (contested.map (·.name))).get? name = none →
      name ∉ contested.map (·.name) := by
    intro name free isAuthored
    rw [NameRegistry.get?_seeded, if_pos isAuthored] at free
    cases free
  let embedding := fun passed : Value => Embedding.mk (contestedGeneration passed).query
    (contestedGeneration passed).wrapper (contestedGeneration passed).hash
    (contestedGeneration passed).outcome
  have made : ∀ passed, Embedding.generate
      (Pipeline.entryOf schema .standard (contestant passed)).document (.root queryType)
      (Pipeline.indexOf schema .standard contested) = .ok (embedding passed) :=
    fun passed => Embedding.generate_eq_ok_iff.mpr ⟨contestedGeneration passed, rfl⟩
  have isFree : ∀ passed, Interleaving.IsFree (contested.map (·.name)) (embedding passed) :=
    fun _ => ⟨unauthored _ freeQuery, unauthored _ freeWrapper⟩
  have isFirst : (Pipeline.entryOf schema .standard (contestant (.int "5")), .root queryType) ∈
      Pipeline.paginated schema .standard contested := by
    rw [paginated_contested]
    exact List.mem_cons_self
  have isSecond : (Pipeline.entryOf schema .standard (contestant (.int "6")), .root queryType) ∈
      Pipeline.paginated schema .standard contested := by
    rw [paginated_contested]
    exact List.mem_cons_of_mem _ List.mem_cons_self
  have alike := undisputed _ isFirst _ isSecond _ _ (made (.int "5")) (made (.int "6")) rfl
    (isFree (.int "5")).query
  exact not_sameContent_contested (alike.2 (isFree _) (isFree _))

end Sample

namespace Pipeline

open QueryPaging.Embedding Interleaving

/-- Two fragments of one name that pass different values. -/
theorem alwaysResolves_iff_contested :
    ∃ report, run Sample.schema .standard 1 Sample.contested = .ok report ∧
      report = reportFrom Sample.schema .standard (authored Sample.contested)
          ((resultsInTurn Sample.schema .standard (authored Sample.contested)).map (·.2)) ∧
        (TellApart ((paginated Sample.schema .standard (authored Sample.contested)).map
            (callOf (indexOf Sample.schema .standard (authored Sample.contested)))) →
          Resolves Sample.schema .standard (authored Sample.contested) SameHash
            (resultsInTurn Sample.schema .standard (authored Sample.contested))) ∧
        (AlwaysResolves Sample.schema .standard (authored Sample.contested) report ↔
          HasNoConflicts Sample.schema .standard (authored Sample.contested)) := by
  have hasRoot : Sample.schema.queryRoot? = some Sample.queryType := by decide
  have result := run_eq hasRoot .standard 1 Sample.contested
  exact ⟨_, result, alwaysResolves_iff result⟩

/-- Not in every batch are conflicts always resolved in order: two fragments of one name may both
have their queries, though these differ. -/
theorem not_forall_alwaysResolves :
    ¬ ∀ (schema : Schema) (config : IdentityConfig) (batch : List Document) (report : Report),
      run schema config 1 batch = .ok report →
        AlwaysResolves schema config (authored batch) report := by
  intro always
  have hasRoot : Sample.schema.queryRoot? = some Sample.queryType := by decide
  have result := run_eq hasRoot .standard 1 Sample.contested
  exact Sample.not_hasNoConflicts_contested
    (hasNoConflicts_of_alwaysResolves (always _ _ _ _ result))

end Pipeline

end QueryPaging
