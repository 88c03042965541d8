import QueryPaging.Proofs.Recording
import QueryPaging.Proofs.Reporting

/-!
# Who has a name

Paginated fragments of one name contend for the names of their queries. Conflicts are resolved in
the order of the batch if the first that contends for a name has it, together with those like it,
and all others are told that it is taken. A single worker resolves them so, as far as hashes tell
queries apart.

- `isResolved_inTurn`: who has a name when items are embedded one after the other.
-/

namespace QueryPaging

namespace Interleaving

open QueryPaging.Embedding NameRegistry Pipeline

section Facts

variable (index : FragmentIndex) (taken : List String)

/-- That a query is generated for an item, and that no author has a name of it. -/
structure Contends (item : Item) (embedding : Embedding) : Prop where
  made : Makes index item embedding
  free : IsFree taken embedding

/-- That an item contends for a name, and none before it does. -/
structure Leads (before : List Item) (item : Item) (leader : Embedding) : Prop where
  contends : Contends index taken item leader
  first : ∀ earlier ∈ before, ∀ rival, Contends index taken earlier rival →
    rival.query.text ≠ leader.query.text

/-- Whether the first item that contends for a name has it, with those whose queries are the same,
and all others of its name are told that it is taken and go back to what was written. -/
def IsResolved (same : Document → Document → Prop) (results : List (Item × Outcome)) : Prop :=
  ∀ before first after leader, results = before ++ first :: after →
    Leads index taken (before.map (·.1)) first.1 leader →
    first.2 = settle first.1 (.ok leader.document) ∧
      ∀ later ∈ after, ∀ rival, Contends index taken later.1 rival →
        rival.query.text = leader.query.text →
        (same rival.document leader.document →
          later.2 = settle later.1 (.ok rival.document)) ∧
        (¬ same rival.document leader.document →
          later.2 = settle later.1 (.error (.nameCollision rival.query)) ∧
            concluded (later.1.1, some later.2) = later.1.1.authored)

def callOf (item : Item) : Call :=
  ⟨item.1.document, item.2, index⟩

/-- Some items with their outcomes when they are embedded one after the other. -/
def inTurn (registry : NameRegistry) (items : List Item) : List (Item × Outcome) :=
  items.zip (Workers.workThrough (embedOne index) registry items).1

end Facts

def SameHash (left right : Document) : Prop :=
  left.hash? = right.hash?

/-! ## Embedding one after the other -/

section Steps

variable {index : FragmentIndex} {registry claimed later : NameRegistry} {item : Item}
  {embedding : Embedding} {items : List Item}

theorem map_fst_inTurn (index : FragmentIndex) (registry : NameRegistry) (items : List Item) :
    (inTurn index registry items).map (·.1) = items := by
  have lengths := Workers.length_workThrough (embedOne index) registry items
  exact List.map_fst_zip (by omega)

/-- The outcome of an item, from the registry that the items before it leave. -/
theorem outcome_of_inTurn {before after : List (Item × Outcome)} {each : Item × Outcome}
    (split : inTurn index registry items = before ++ each :: after) :
    each.2 = settle each.1 ((callOf index each.1).step
      (Workers.workThrough Call.step registry
        (before.map fun earlier => callOf index earlier.1)).2).1 := by
  induction before generalizing registry items with
  | nil =>
      cases items with
      | nil => cases split
      | cons item others =>
          simp only [inTurn, Workers.workThrough, List.zip_cons_cons, List.nil_append,
            List.cons.injEq] at split
          rw [← split.1]
          rfl
  | cons first earlier inductionHypothesis =>
      cases items with
      | nil => cases split
      | cons item others =>
          simp only [inTurn, Workers.workThrough, List.zip_cons_cons, List.cons_append,
            List.cons.injEq] at split
          have rest := inductionHypothesis split.2
          rw [rest, ← split.1]
          rfl

theorem step_of_claims
    (made : Makes index item embedding)
    (first : registry.claim embedding.query embedding.hash = .ok claimed)
    (second : claimed.claim embedding.wrapper embedding.hash = .ok later) :
    (callOf index item).step registry = (.ok embedding.document, later) := by
  rw [Call.step, callOf, embed, made]
  simp only [claimNames, first, second]

theorem step_of_missed {fault : Fault}
    (made : Makes index item embedding)
    (missed : registry.claim embedding.query embedding.hash = .error fault) :
    (callOf index item).step registry = (.error fault, registry) := by
  rw [Call.step, callOf, embed, made]
  simp only [claimNames, missed]

end Steps

/-! ## The first of a name -/

section First

variable {index : FragmentIndex} {taken : List String} {items before : List Item}
  {item : Item} {leader rival : Embedding} {results : List (Except Fault Document)}
  {registry : NameRegistry}

theorem Leads.free
    (leads : Leads index taken before item leader)
    (records : Records taken results registry)
    (issued : Issued (before.map (callOf index)) results) :
    registry.get? leader.query = none ∧ registry.get? leader.wrapper = none := by
  have unheld : ∀ name, leader.query.text = name ∨ leader.wrapper.text = name → name ∉ taken →
      registry.get? name = none := by
    intro name isName free
    cases held : registry.get? name with
    | none => rfl
    | some holder =>
        cases holder with
        | authored => exact absurd ((records.authored name).mp held) free
        | generated hash =>
            obtain ⟨query, among, isHash, isQuery⟩ := (records.generated name hash).mp held
            obtain ⟨call, isCall, rival, makes, rfl⟩ := issued query among
            obtain ⟨earlier, isEarlier, rfl⟩ := List.mem_map.mp isCall
            obtain ⟨rivalName, rivalWrapper, _, _⟩ := document_of_generate makes
            have isRival : rival.query.text = name ∨ rival.wrapper.text = name := by
              rw [rivalName, rivalWrapper, Option.some.injEq] at isQuery
              exact isQuery
            -- Whatever was embedded before had its names, so it contended for them.
            have unauthored : ∀ own, rival.document.name = own ∨
                rival.document.wrapper? = some own → own ∉ taken := by
              intro own isOwn isTaken
              have recorded := (records.generated own hash).mpr
                ⟨rival.document, among, isHash, isOwn⟩
              rw [(records.authored own).mpr isTaken] at recorded
              cases recorded
            have contends : Contends index taken earlier rival :=
              ⟨makes, unauthored _ (Or.inl rivalName), unauthored _ (Or.inr rivalWrapper)⟩
            have sameQuery := query_eq_of_common_name makes leads.contends.made isRival isName
            exact absurd sameQuery (leads.first earlier isEarlier rival contends)
  exact ⟨unheld _ (Or.inl rfl) leads.contends.free.query,
    unheld _ (Or.inr rfl) leads.contends.free.wrapper⟩

theorem Leads.step
    (leads : Leads index taken before item leader)
    (records : Records taken results registry)
    (issued : Issued (before.map (callOf index)) results) :
    ((callOf index item).step registry).1 = .ok leader.document := by
  obtain ⟨freeQuery, freeWrapper⟩ := leads.free records issued
  obtain ⟨generation, rfl⟩ := generate_eq_ok_iff.mp leads.contends.made
  obtain ⟨later, embedded⟩ := exists_embed_of_free generation freeQuery freeWrapper
  rw [Call.step, callOf, embedded]

/-- Whoever comes after the first has its hash, or finds the name taken. -/
theorem step_of_led
    (makes : Makes index item rival)
    (made : ∃ document identity otherIndex, generate document identity otherIndex = .ok leader)
    (tells : leader.document.TellsApart rival.document)
    (records : Records taken results registry)
    (among : .ok leader.document ∈ results)
    (sameQuery : rival.query.text = leader.query.text) :
    ((callOf index item).step registry).1 =
      if rival.hash = leader.hash then .ok rival.document
      else .error (.nameCollision rival.query) := by
  obtain ⟨document, identity, otherIndex, made⟩ := made
  obtain ⟨isQuery, isWrapper, isHash, _⟩ := document_of_generate made
  have heldQuery : registry.get? rival.query = some (.generated leader.hash) := by
    rw [sameQuery, records.generated]
    exact ⟨leader.document, among, isHash, Or.inl isQuery⟩
  by_cases sameHash : rival.hash = leader.hash
  · have sameWrapper : leader.wrapper = rival.wrapper :=
      wrapper_eq_of_hash_eq makes made tells sameHash.symm
    have heldWrapper : registry.get? rival.wrapper = some (.generated rival.hash) := by
      rw [← sameWrapper, sameHash, records.generated]
      exact ⟨leader.document, among, isHash, Or.inr isWrapper⟩
    rw [← sameHash] at heldQuery
    have first := claim_eq_ok_iff.mpr (Or.inr ⟨heldQuery, rfl⟩)
    have second := claim_eq_ok_iff.mpr (Or.inr ⟨heldWrapper, rfl⟩)
    rw [if_pos sameHash, step_of_claims makes first second]
  · have different : Claim.generated leader.hash ≠ .generated rival.hash := by
      simpa using Ne.symm sameHash
    have missed := claim_eq_error_iff.mpr ⟨rfl, _, heldQuery, different⟩
    rw [if_neg sameHash, step_of_missed makes missed]

/-- One after the other, conflicts are resolved in order as far as hashes tell queries apart. -/
theorem isResolved_inTurn
    (tells : TellApart (items.map (callOf index))) :
    IsResolved index taken SameHash (inTurn index (seeded taken) items) := by
  intro before first after leader split leads
  have isItems : items = before.map (·.1) ++ first.1 :: after.map (·.1) := by
    rw [← map_fst_inTurn index (seeded taken) items, split, List.map_append, List.map_cons]
  have apart : TellApart ((before.map (·.1)).map (callOf index) ++
      (first.1 :: after.map (·.1)).map (callOf index)) := by
    rw [← List.map_append, ← isItems]
    exact tells
  obtain ⟨records, issued⟩ := records_and_issued taken apart.before
  have isFirst := leads.step records issued
  constructor
  · rw [outcome_of_inTurn split]
    rw [List.map_map] at isFirst
    exact congrArg (settle first.1) isFirst
  · intro later member rival contends sameQuery
    obtain ⟨between, others, rfl⟩ := List.append_of_mem member
    have longer : inTurn index (seeded taken) items =
        (before ++ first :: between) ++ later :: others := by
      rw [split, List.append_assoc, List.cons_append]
    have isLonger : items =
        (before ++ first :: between).map (·.1) ++ (later :: others).map (·.1) := by
      rw [← List.map_append, ← longer, map_fst_inTurn]
    have stillApart : TellApart (((before ++ first :: between).map (·.1)).map (callOf index) ++
        ((later :: others).map (·.1)).map (callOf index)) := by
      rw [← List.map_append, ← isLonger]
      exact tells
    obtain ⟨recorded, _⟩ := records_and_issued taken stillApart.before
    have among : Except.ok leader.document ∈ (embedInTurn taken
        (((before ++ first :: between).map (·.1)).map (callOf index))).1 := by
      rw [List.map_append, List.map_append, embedInTurn_append]
      refine List.mem_append_right _ ?_
      simp only [List.map_cons, Workers.workThrough]
      rw [isFirst]
      exact List.mem_cons_self
    have tell : leader.document.TellsApart rival.document := by
      refine stillApart (callOf index first.1) ?_ (callOf index later.1) ?_ _ _
        leads.contends.made contends.made
      · simp
      · simp
    have isLater := step_of_led contends.made ⟨_, _, _, leads.contends.made⟩ tell recorded among
      sameQuery
    have outcome := outcome_of_inTurn longer
    rw [List.map_map] at isLater
    have hashes : SameHash rival.document leader.document ↔ rival.hash = leader.hash := by
      rw [SameHash, (document_of_generate contends.made).2.2.1,
        (document_of_generate leads.contends.made).2.2.1, Option.some.injEq]
    rw [hashes]
    constructor
    · intro same
      rw [if_pos same] at isLater
      exact outcome.trans (congrArg (settle later.1) isLater)
    · intro different
      rw [if_neg different] at isLater
      have isMissed := outcome.trans (congrArg (settle later.1) isLater)
      refine ⟨isMissed, ?_⟩
      rw [isMissed]
      rfl

end First

/-! ## Whoever is the first -/

section Leader

variable {index : FragmentIndex} {taken : List String} {items : List Item} {item : Item}
  {embedding : Embedding}

theorem exists_leads
    (member : item ∈ items)
    (contends : Contends index taken item embedding) :
    ∃ before first after leader, items = before ++ first :: after ∧
      Leads index taken before first leader ∧ leader.query.text = embedding.query.text := by
  induction items with
  | nil => cases member
  | cons head others inductionHypothesis =>
      by_cases here : ∃ leader, Contends index taken head leader ∧
          leader.query.text = embedding.query.text
      · obtain ⟨leader, leads, sameQuery⟩ := here
        have first : ∀ earlier ∈ ([] : List Item), ∀ rival, Contends index taken earlier rival →
            rival.query.text ≠ leader.query.text := by
          intro earlier none
          cases none
        exact ⟨[], head, others, leader, rfl, ⟨leads, first⟩, sameQuery⟩
      · have behind : item ∈ others := by
          rcases List.mem_cons.mp member with rfl | later
          · exact absurd ⟨embedding, contends, rfl⟩ here
          · exact later
        obtain ⟨before, first, after, leader, rfl, leads, sameQuery⟩ :=
          inductionHypothesis behind
        refine ⟨head :: before, first, after, leader, rfl, ⟨leads.contends, ?_⟩, sameQuery⟩
        intro earlier among rival rivals same
        rcases List.mem_cons.mp among with rfl | inside
        · exact here ⟨rival, rivals, same.trans sameQuery⟩
        · exact leads.first earlier inside rival rivals same

/-- Where conflicts are resolved in order, whoever leads decides what comes of the others. -/
theorem IsResolved.outcome {same : Document → Document → Prop}
    {results : List (Item × Outcome)} {before after : List Item} {first : Item}
    {leader : Embedding} {outcome : Outcome}
    (resolved : IsResolved index taken same results)
    (reflexive : ∀ document, same document document)
    (isItems : results.map (·.1) = before ++ first :: after)
    (leads : Leads index taken before first leader)
    (member : (item, outcome) ∈ results)
    (contends : Contends index taken item embedding)
    (sameQuery : leader.query.text = embedding.query.text) :
    (same embedding.document leader.document →
        outcome = settle item (.ok embedding.document)) ∧
      (¬ same embedding.document leader.document →
        outcome = settle item (.error (.nameCollision embedding.query))) := by
  obtain ⟨earlier, rest, rfl, rfl, isRest⟩ := List.map_eq_append_iff.mp isItems
  obtain ⟨each, later, rfl, rfl, rfl⟩ := List.map_eq_cons_iff.mp isRest
  obtain ⟨isFirst, others⟩ := resolved earlier each later leader rfl leads
  rcases List.mem_append.mp member with inFront | notInFront
  · have among : item ∈ earlier.map (·.1) := List.mem_map_of_mem inFront
    exact absurd sameQuery.symm (leads.first item among embedding contends)
  rcases List.mem_cons.mp notInFront with rfl | behind
  · have sameLeader : embedding = leader :=
      Except.ok.inj (contends.made.symm.trans leads.contends.made)
    subst sameLeader
    exact ⟨fun _ => isFirst, fun different => absurd (reflexive _) different⟩
  · have decided := others _ behind embedding contends sameQuery.symm
    exact ⟨decided.1, fun different => (decided.2 different).1⟩

end Leader

end Interleaving

end QueryPaging
