import QueryPaging.Proofs.Naming

/-!
# Claiming names

How the embedding of a fragment leaves the registry: with both of its names claimed, or with
neither claimed by it.

- `embed_eq_ok_iff`: an embedding succeeds just where both names can be claimed one after the other.
- `embed_again`: what was embedded is embedded once more without another claim.
- `authored_of_embed`: whatever comes of an embedding, the authored names stay the same.
-/

namespace QueryPaging

namespace Embedding

/-- The ways of claiming the names of a query. -/
inductive Claims (embedding : Embedding) (registry : NameRegistry) :
    Except Fault Unit × NameRegistry → Prop where
  | queryTaken {fault : Fault}
      (first : registry.claim embedding.query embedding.hash = .error fault) :
      Claims embedding registry (.error fault, registry)
  | wrapperTaken {claimed : NameRegistry} {fault : Fault}
      (first : registry.claim embedding.query embedding.hash = .ok claimed)
      (second : claimed.claim embedding.wrapper embedding.hash = .error fault) :
      Claims embedding registry (.error fault, claimed.release embedding.query)
  | both {claimed later : NameRegistry}
      (first : registry.claim embedding.query embedding.hash = .ok claimed)
      (second : claimed.claim embedding.wrapper embedding.hash = .ok later) :
      Claims embedding registry (.ok (), later)

theorem claims_claimNames (embedding : Embedding) (registry : NameRegistry) :
    Claims embedding registry (embedding.claimNames registry) := by
  unfold claimNames
  cases first : registry.claim embedding.query embedding.hash with
  | error fault => exact .queryTaken first
  | ok claimed =>
      simp only
      cases second : claimed.claim embedding.wrapper embedding.hash with
      | error fault => exact .wrapperTaken first second
      | ok later => exact .both first second

/-- What an embedding leaves of the registry. -/
structure Keeps (registry later : NameRegistry) : Prop where
  distinct : later.IsDistinct
  authored : ∀ name, later.get? name = some .authored ↔ registry.get? name = some .authored

theorem Claims.keeps {embedding : Embedding} {registry : NameRegistry}
    {result : Except Fault Unit × NameRegistry}
    (distinct : registry.IsDistinct)
    (claims : Claims embedding registry result) :
    Keeps registry result.2 := by
  cases claims with
  | queryTaken first => exact ⟨distinct, fun _ => Iff.rfl⟩
  | wrapperTaken first second =>
      have claimedDistinct := distinct.claim first
      refine ⟨claimedDistinct.release _, fun name => ?_⟩
      rw [NameRegistry.authored_of_release claimedDistinct, NameRegistry.authored_of_claim first]
  | both first second =>
      refine ⟨(distinct.claim first).claim second, fun name => ?_⟩
      rw [NameRegistry.authored_of_claim second, NameRegistry.authored_of_claim first]

variable {document : Document} {identity : Identity} {index : FragmentIndex}
  {registry later : NameRegistry} {query : Document}

theorem keeps_embed (document : Document) (identity : Identity) (index : FragmentIndex)
    (distinct : registry.IsDistinct) :
    Keeps registry (embed document identity index registry).2 := by
  unfold embed
  cases generate document identity index with
  | error fault => exact ⟨distinct, fun _ => Iff.rfl⟩
  | ok embedding =>
      have kept := (claims_claimNames embedding registry).keeps distinct
      simp only
      split
      · next claimed => rwa [claimed] at kept
      · next claimed => rwa [claimed] at kept

/-- A query is embedded just where it can be generated and both of its names can be claimed. -/
theorem embed_eq_ok_iff :
    embed document identity index registry = (.ok query, later) ↔
      ∃ generation : Generation document identity index, query = generation.outcome ∧
        ∃ claimed, registry.claim generation.query generation.hash = .ok claimed ∧
          claimed.claim generation.wrapper generation.hash = .ok later := by
  constructor
  · intro result
    unfold embed at result
    cases generated : generate document identity index with
    | error fault => simp [generated] at result
    | ok embedding =>
        obtain ⟨generation, rfl⟩ := generate_eq_ok_iff.mp generated
        have claims := claims_claimNames
          ⟨generation.query, generation.wrapper, generation.hash, generation.outcome⟩ registry
        simp only [generated] at result
        split at result
        · cases result
        · next both =>
            cases result
            rw [both] at claims
            cases claims with
            | both first second => exact ⟨generation, rfl, _, first, second⟩
  · rintro ⟨generation, rfl, claimed, first, second⟩
    rw [embed, generate_eq_ok_iff.mpr ⟨generation, rfl⟩]
    simp only [claimNames, first, second]

/-- An embedded query took two names that no author has. -/
theorem ne_authored_of_embed
    (result : embed document identity index registry = (.ok query, later)) :
    ∃ generation : Generation document identity index, query = generation.outcome ∧
      registry.get? generation.query ≠ some .authored ∧
      registry.get? generation.wrapper ≠ some .authored := by
  obtain ⟨generation, same, claimed, first, second⟩ := embed_eq_ok_iff.mp result
  refine ⟨generation, same, NameRegistry.ne_authored_of_claim first, fun isAuthored => ?_⟩
  have stillAuthored := (NameRegistry.authored_of_claim first _).mpr isAuthored
  exact NameRegistry.ne_authored_of_claim second stillAuthored

/-- What was embedded is embedded once more, and the registry stays as it is. -/
theorem embed_again
    (result : embed document identity index registry = (.ok query, later)) :
    embed document identity index later = (.ok query, later) := by
  obtain ⟨generation, same, claimed, first, second⟩ := embed_eq_ok_iff.mp result
  have different : generation.wrapper.text ≠ generation.query.text := by
    rw [Name.require_eq_ok_iff.mp generation.isQuery, Name.require_eq_ok_iff.mp generation.isWrapper]
    exact wrapperName_ne_paginationQueryName _ _ _
  have heldQuery : later.get? generation.query = some (.generated generation.hash) := by
    rw [NameRegistry.get?_of_claim second, if_neg different, NameRegistry.get?_of_claim first,
      if_pos rfl]
  have heldWrapper : later.get? generation.wrapper = some (.generated generation.hash) := by
    rw [NameRegistry.get?_of_claim second, if_pos rfl]
  exact embed_eq_ok_iff.mpr ⟨generation, same, later,
    NameRegistry.claim_eq_ok_iff.mpr (Or.inr ⟨heldQuery, rfl⟩),
    NameRegistry.claim_eq_ok_iff.mpr (Or.inr ⟨heldWrapper, rfl⟩)⟩

end Embedding

end QueryPaging
