import Mathlib.Data.List.Induction
import QueryPaging.Proofs.Batches
import QueryPaging.Proofs.Identification
import QueryPaging.Proofs.Uniqueness

/-!
# What a registry records

Fragments are embedded one after the other with one registry. It starts with the names of authors,
and at any time it holds these and the names of the queries that were embedded so far, each for the
hash of its query. An embedding that fails leaves it exactly as it was.

- `Records.step`: what one embedding adds to the record.
- `records_and_issued`: what the registry holds after any number of embeddings.
-/

namespace QueryPaging

namespace Embedding

/-! ## Sequences of embeddings -/

structure Call where
  document : Document
  identity : Identity
  index : FragmentIndex

namespace Call

def generated (call : Call) : Except Fault Embedding :=
  generate call.document call.identity call.index

def step (registry : NameRegistry) (call : Call) : Except Fault Document × NameRegistry :=
  embed call.document call.identity call.index registry

end Call

/-- The results of some embeddings one after the other, and the registry that they leave. -/
def embedInTurn (taken : List String) (calls : List Call) :
    List (Except Fault Document) × NameRegistry :=
  Workers.workThrough Call.step (NameRegistry.seeded taken) calls

/-- That hashes and texts tell apart whatever queries some calls lead to. -/
def TellApart (calls : List Call) : Prop :=
  ∀ first ∈ calls, ∀ second ∈ calls, ∀ left right, first.generated = .ok left →
    second.generated = .ok right → left.document.TellsApart right.document

/-- That a registry holds the names that authors took and those of the queries among some results,
and no others. -/
structure Records (taken : List String) (results : List (Except Fault Document))
    (registry : NameRegistry) : Prop where
  distinct : registry.IsDistinct
  authored : ∀ name, registry.get? name = some .authored ↔ name ∈ taken
  generated : ∀ name hash, registry.get? name = some (.generated hash) ↔
    ∃ query, .ok query ∈ results ∧ query.hash? = some hash ∧
      (query.name = name ∨ query.wrapper? = some name)
  hashed : ∀ query, .ok query ∈ results →
    query.hash? = some (contentHash (normalizedText query.definitions))

/-- That the queries among some results are what calls lead to. -/
def Issued (calls : List Call) (results : List (Except Fault Document)) : Prop :=
  ∀ query, .ok query ∈ results →
    ∃ call ∈ calls, ∃ embedding, call.generated = .ok embedding ∧ embedding.document = query

section Generated

variable {document other : Document} {identity otherIdentity : Identity}
  {index otherIndex : FragmentIndex} {embedding rival : Embedding}
  (generated : generate document identity index = .ok embedding)

include generated

/-- A query says of itself how it is called and which hash it has. -/
theorem document_of_generate :
    embedding.document.name = embedding.query.text ∧
      embedding.document.wrapper? = some embedding.wrapper.text ∧
      embedding.document.hash? = some embedding.hash ∧
      embedding.hash = contentHash (normalizedText embedding.document.definitions) := by
  obtain ⟨generation, rfl⟩ := generate_eq_ok_iff.mp generated
  exact ⟨rfl, rfl, rfl, rfl⟩

theorem wrapper_eq_of_hash_eq
    (rivals : generate other otherIdentity otherIndex = .ok rival)
    (tells : rival.document.TellsApart embedding.document)
    (same : rival.hash = embedding.hash) :
    rival.wrapper = embedding.wrapper := by
  obtain ⟨generation, rfl⟩ := generate_eq_ok_iff.mp generated
  obtain ⟨another, rfl⟩ := generate_eq_ok_iff.mp rivals
  have sent := (another.hash_eq_iff_sameWhenSent generation tells).mp same
  exact (another.queryOperation_eq generation sent).2.1

end Generated

section Step

variable {taken : List String} {results : List (Except Fault Document)} {calls : List Call}
  {registry claimed later : NameRegistry} {call : Call} {embedding : Embedding} {fault : Fault}
  (records : Records taken results registry)

include records

/-- Where the wrapper cannot be claimed after the query, nobody had the name of the query. -/
theorem Records.free_of_missed
    (issued : Issued calls results)
    (tells : ∀ earlier ∈ calls, ∀ rival, earlier.generated = .ok rival →
      rival.document.TellsApart embedding.document)
    (generated : call.generated = .ok embedding)
    (first : registry.claim embedding.query embedding.hash = .ok claimed)
    (second : claimed.claim embedding.wrapper embedding.hash = .error fault) :
    registry.get? embedding.query = none := by
  rcases NameRegistry.claim_eq_ok_iff.mp first with ⟨free, _⟩ | ⟨held, rfl⟩
  · exact free
  -- The query would be one of those recorded, and its wrapper would be recorded for its hash.
  · obtain ⟨query, among, isHash, isName⟩ := (records.generated _ _).mp held
    obtain ⟨earlier, member, rival, made, rfl⟩ := issued query among
    obtain ⟨rivalName, rivalWrapper, rivalHash, _⟩ := document_of_generate made
    have sameHash : rival.hash = embedding.hash := by
      rw [rivalHash, Option.some.injEq] at isHash
      exact isHash
    have sameWrapper := wrapper_eq_of_hash_eq generated made (tells earlier member rival made)
      sameHash
    have recorded : claimed.get? embedding.wrapper = some (.generated embedding.hash) := by
      rw [records.generated]
      refine ⟨rival.document, among, isHash, Or.inr ?_⟩
      rw [rivalWrapper, sameWrapper]
    obtain ⟨_, holder, holds, different⟩ := NameRegistry.claim_eq_error_iff.mp second
    rw [recorded, Option.some.injEq] at holds
    exact absurd holds.symm different

theorem Records.of_claims
    (generated : call.generated = .ok embedding)
    (first : registry.claim embedding.query embedding.hash = .ok claimed)
    (second : claimed.claim embedding.wrapper embedding.hash = .ok later) :
    Records taken (results ++ [.ok embedding.document]) later := by
  obtain ⟨isQuery, isWrapper, isHash, hashed⟩ := document_of_generate generated
  have isLast : Except.ok embedding.document ∈
      results ++ [(.ok embedding.document : Except Fault Document)] :=
    List.mem_append_right _ List.mem_cons_self
  constructor
  case distinct => exact (records.distinct.claim first).claim second
  case authored =>
    intro name
    rw [NameRegistry.authored_of_claim second, NameRegistry.authored_of_claim first,
      records.authored]
  case generated =>
    intro name hash
    constructor
    · intro held
      rw [NameRegistry.get?_of_claim second, NameRegistry.get?_of_claim first] at held
      by_cases wrapper : embedding.wrapper.text = name
      · rw [if_pos wrapper, Option.some.injEq, Claim.generated.injEq] at held
        exact ⟨embedding.document, isLast, held ▸ isHash, Or.inr (wrapper ▸ isWrapper)⟩
      · rw [if_neg wrapper] at held
        by_cases query : embedding.query.text = name
        · rw [if_pos query, Option.some.injEq, Claim.generated.injEq] at held
          exact ⟨embedding.document, isLast, held ▸ isHash, Or.inl (query ▸ isQuery)⟩
        · rw [if_neg query] at held
          obtain ⟨earlier, among, rest⟩ := (records.generated name hash).mp held
          exact ⟨earlier, List.mem_append_left _ among, rest⟩
    · rintro ⟨query, among, ofHash, isName⟩
      rcases List.mem_append.mp among with earlier | last
      · have before := (records.generated name hash).mpr ⟨query, earlier, ofHash, isName⟩
        have between := NameRegistry.get?_of_claim_of_held first before
        exact NameRegistry.get?_of_claim_of_held second between
      · have same := Except.ok.inj (List.mem_singleton.mp last)
        subst same
        rw [isHash, Option.some.injEq] at ofHash
        subst ofHash
        have heldQuery := NameRegistry.get?_of_claim first embedding.query
        have heldWrapper := NameRegistry.get?_of_claim second embedding.wrapper
        rw [if_pos rfl] at heldQuery heldWrapper
        rcases isName with rfl | wrapper
        · rw [isQuery]
          exact NameRegistry.get?_of_claim_of_held second heldQuery
        · rw [isWrapper, Option.some.injEq] at wrapper
          exact wrapper ▸ heldWrapper
  case hashed =>
    intro query among
    rcases List.mem_append.mp among with earlier | last
    · exact records.hashed query earlier
    · have same := Except.ok.inj (List.mem_singleton.mp last)
      rw [same, isHash, hashed]

theorem Records.of_error :
    Records taken (results ++ [.error fault]) registry := by
  have sameQueries : ∀ query, Except.ok query ∈
      results ++ [(.error fault : Except Fault Document)] ↔ .ok query ∈ results := by
    simp
  refine ⟨records.distinct, records.authored, ?_, ?_⟩
  · simpa only [sameQueries] using records.generated
  · simpa only [sameQueries] using records.hashed

/-- An embedding fails and leaves the registry exactly as it was, or it is recorded. -/
theorem Records.step
    (issued : Issued calls results)
    (tells : ∀ earlier ∈ calls, ∀ left right, earlier.generated = .ok left →
      call.generated = .ok right → left.document.TellsApart right.document) :
    (∃ fault, call.step registry = (.error fault, registry)) ∨
      ∃ embedding later, call.generated = .ok embedding ∧
        call.step registry = (.ok embedding.document, later) ∧
        Records taken (results ++ [.ok embedding.document]) later := by
  unfold Call.step embed
  cases generated : call.generated with
  | error fault =>
      rw [Call.generated] at generated
      rw [generated]
      exact Or.inl ⟨fault, rfl⟩
  | ok embedding =>
      have claims := claims_claimNames embedding registry
      have made : generate call.document call.identity call.index = .ok embedding := generated
      rw [made]
      simp only
      cases result : embedding.claimNames registry with
      | mk outcome after =>
          rw [result] at claims
          cases claims with
          | queryTaken first => exact Or.inl ⟨_, rfl⟩
          | wrapperTaken first second =>
              have free := records.free_of_missed issued
                (fun earlier member rival made => tells earlier member rival embedding made generated)
                generated first second
              rw [NameRegistry.release_of_claim free first]
              exact Or.inl ⟨_, rfl⟩
          | both first second =>
              exact Or.inr ⟨embedding, after, rfl, rfl, records.of_claims generated first second⟩

end Step

/-! ## Runs -/

theorem embedInTurn_append (taken : List String) (before after : List Call) :
    embedInTurn taken (before ++ after) =
      ((embedInTurn taken before).1 ++
          (Workers.workThrough Call.step (embedInTurn taken before).2 after).1,
        (Workers.workThrough Call.step (embedInTurn taken before).2 after).2) :=
  Workers.workThrough_append _ _ _ _

theorem TellApart.before {before after : List Call}
    (tells : TellApart (before ++ after)) :
    TellApart before :=
  fun first earlier second later =>
    tells first (List.mem_append_left _ earlier) second (List.mem_append_left _ later)

theorem records_seeded (taken : List String) :
    Records taken [] (NameRegistry.seeded taken) where
  distinct := NameRegistry.isDistinct_seeded taken
  authored := by simp [NameRegistry.get?_seeded]
  generated := by simp [NameRegistry.get?_seeded]
  hashed := by simp

theorem records_and_issued (taken : List String) {calls : List Call}
    (tells : TellApart calls) :
    Records taken (embedInTurn taken calls).1 (embedInTurn taken calls).2 ∧
      Issued calls (embedInTurn taken calls).1 := by
  induction calls using List.reverseRecOn with
  | nil => exact ⟨records_seeded taken, by simp [Issued, embedInTurn, Workers.workThrough]⟩
  | append_singleton earlier call inductionHypothesis =>
      obtain ⟨records, issued⟩ := inductionHypothesis tells.before
      have apart : ∀ first ∈ earlier, ∀ left right, first.generated = .ok left →
          call.generated = .ok right → left.document.TellsApart right.document :=
        fun first among =>
          tells first (List.mem_append_left _ among) call (List.mem_append_right _ (by simp))
      have stillIssued : Issued (earlier ++ [call]) (embedInTurn taken earlier).1 := by
        intro query among
        obtain ⟨first, member, rest⟩ := issued query among
        exact ⟨first, List.mem_append_left _ member, rest⟩
      rw [embedInTurn_append]
      simp only [Workers.workThrough]
      rcases records.step issued apart with
        ⟨fault, isStep⟩ | ⟨embedding, later, generated, isStep, recorded⟩
      · rw [isStep]
        refine ⟨records.of_error, ?_⟩
        intro query among
        exact stillIssued query (by simpa using among)
      · rw [isStep]
        refine ⟨recorded, ?_⟩
        intro query among
        rcases List.mem_append.mp among with before | last
        · exact stillIssued query before
        · have same := Except.ok.inj (List.mem_singleton.mp last)
          exact ⟨call, by simp, embedding, generated, same.symm⟩

/-- What one of two records holds the other holds as well if its results go on from there. -/
theorem Records.get?_mono {taken : List String} {results more : List (Except Fault Document)}
    {registry later : NameRegistry} {name : String} {holder : Claim}
    (records : Records taken results registry)
    (afterwards : Records taken (results ++ more) later)
    (held : registry.get? name = some holder) :
    later.get? name = some holder := by
  cases holder with
  | authored =>
      rw [afterwards.authored]
      exact (records.authored name).mp held
  | generated hash =>
      obtain ⟨query, among, rest⟩ := (records.generated name hash).mp held
      exact (afterwards.generated name hash).mpr ⟨query, List.mem_append_left _ among, rest⟩

/-- At any time the registry records what was embedded so far. If the next embedding fails it leaves
the registry as it was, and whatever the registry holds it still holds in the end. -/
theorem records_embedInTurn (taken : List String) {before after : List Call}
    (tells : TellApart (before ++ after)) :
    Records taken (embedInTurn taken before).1 (embedInTurn taken before).2 ∧
      (∀ call ∈ after.head?, ∀ fault,
        (call.step (embedInTurn taken before).2).1 = .error fault →
          (call.step (embedInTurn taken before).2).2 = (embedInTurn taken before).2) ∧
      ∀ name holder, (embedInTurn taken before).2.get? name = some holder →
        (embedInTurn taken (before ++ after)).2.get? name = some holder := by
  obtain ⟨records, issued⟩ := records_and_issued taken tells.before
  obtain ⟨afterwards, _⟩ := records_and_issued taken tells
  refine ⟨records, ?_, ?_⟩
  · intro call isNext fault fails
    have member : call ∈ after := List.mem_of_mem_head? isNext
    have apart : ∀ first ∈ before, ∀ left right, first.generated = .ok left →
        call.generated = .ok right → left.document.TellsApart right.document :=
      fun first among =>
        tells first (List.mem_append_left _ among) call (List.mem_append_right _ member)
    rcases records.step issued apart with ⟨_, isStep⟩ | ⟨embedding, later, _, isStep, _⟩
    · rw [isStep]
    · rw [isStep] at fails
      cases fails
  · intro name holder held
    rw [embedInTurn_append] at afterwards ⊢
    exact records.get?_mono afterwards held

/-- Two fragments of one name, beside an author who took that name. -/
theorem records_embedInTurn_spreading :
    let call := fun passed : Value =>
      Call.mk (Sample.spreading passed) .node [(Sample.part, Sample.partBody)]
    let before := [call (.int "5")]
    let after := [call (.int "6")]
    TellApart (before ++ after) ∧
      Records ["Page"] (embedInTurn ["Page"] before).1 (embedInTurn ["Page"] before).2 ∧
      (∀ call ∈ after.head?, ∀ fault,
        (call.step (embedInTurn ["Page"] before).2).1 = .error fault →
          (call.step (embedInTurn ["Page"] before).2).2 = (embedInTurn ["Page"] before).2) ∧
      ∀ name holder, (embedInTurn ["Page"] before).2.get? name = some holder →
        (embedInTurn ["Page"] (before ++ after)).2.get? name = some holder := by
  intro call before after
  have outcomes : ∀ passed embedding, (call passed).generated = .ok embedding →
      embedding.document = (Sample.spreadingGeneration passed).outcome := by
    intro passed embedding isEmbedding
    have generated := generate_eq_ok_iff.mpr ⟨Sample.spreadingGeneration passed, rfl⟩
    exact congrArg document (Except.ok.inj (isEmbedding.symm.trans generated))
  have tells : TellApart (before ++ after) := by
    have values : ∀ asked ∈ before ++ after, ∃ passed, asked = call passed := by
      simp [before, after]
    intro first among second other left right isLeft isRight
    obtain ⟨passed, rfl⟩ := values first among
    obtain ⟨another, rfl⟩ := values second other
    rw [outcomes passed left isLeft, outcomes another right isRight]
    exact Sample.tellsApart_spreading passed another
  exact ⟨tells, records_embedInTurn ["Page"] tells⟩

end Embedding

end QueryPaging
