import QueryPaging.Embedding

/-!
# What a generated query is made of

A query is generated from a paginated fragment along the steps that `Generation` records. Whatever
is embedded was generated, and its names were free.
-/

namespace QueryPaging

/-- How the query of a document is generated, with what was found at each step. -/
structure Generation (document : Document) (identity : Identity) (index : FragmentIndex) where
  fragment : Fragment
  parameters : VariableSet
  query : Name
  wrapper : Name
  declared : VariableSet
  included : List Fragment
  isFragment : document.fragment? = some fragment
  isRead : document.variableSet = .ok parameters
  isQuery : Name.require (paginationQueryName fragment.name) = .ok query
  isWrapper : Name.require (wrapperName fragment.name parameters.canonicalText) = .ok wrapper
  isDeclared : parameters.merge identity.lookupRequests = .ok declared
  isIncluded : index.reachable fragment = .ok included

namespace Generation

variable {document : Document} {identity : Identity} {index : FragmentIndex}

/-- The operation, the wrapper and the fragments that the wrapper reaches. -/
def definitions (generation : Generation document identity index) : List Definition :=
  .operation (Embedding.queryOperation generation.query generation.wrapper generation.parameters
      generation.declared identity)
    :: .fragment { generation.fragment with name := generation.wrapper }
    :: generation.included.map Definition.fragment

/-- The hash of the query's text. -/
def hash (generation : Generation document identity index) : String :=
  contentHash (normalizedText generation.definitions)

/-- The generated query. -/
def outcome (generation : Generation document identity index) : Document where
  name := generation.query
  source := document.source
  definitions := generation.definitions
  refetch := document.refetch
  generated := some ⟨generation.fragment.name, generation.wrapper, generation.hash⟩

end Generation

namespace Embedding

variable {document : Document} {identity : Identity} {index : FragmentIndex}

/-- A query is generated just along the steps of a generation. -/
theorem generate_eq_ok_iff {embedding : Embedding} :
    generate document identity index = .ok embedding ↔
      ∃ generation : Generation document identity index,
        embedding =
          ⟨generation.query, generation.wrapper, generation.hash, generation.outcome⟩ := by
  constructor
  · intro result
    unfold generate at result
    cases isFragment : document.fragment? with
    | none => simp [isFragment] at result
    | some fragment =>
        simp only [isFragment, bind, Except.bind] at result
        split at result
        · cases result
        next parameters isRead =>
        split at result
        · cases result
        next query isQuery =>
        split at result
        · cases result
        next wrapper isWrapper =>
        split at result
        · cases result
        next declared isDeclared =>
        split at result
        · cases result
        next included isIncluded =>
        cases result
        exact ⟨⟨fragment, parameters, query, wrapper, declared, included, isFragment, isRead,
          isQuery, isWrapper, isDeclared, isIncluded⟩, rfl⟩
  · rintro ⟨generation, rfl⟩
    obtain ⟨fragment, parameters, query, wrapper, declared, included, isFragment, isRead,
      isQuery, isWrapper, isDeclared, isIncluded⟩ := generation
    simp [generate, isFragment, isRead, isQuery, isWrapper, isDeclared, isIncluded, bind,
      Except.bind, pure, Except.pure, Generation.outcome, Generation.definitions,
      Generation.hash]

/-- What is embedded was generated. -/
theorem exists_generation_of_embed {registry later : NameRegistry} {query : Document}
    (result : embed document identity index registry = (.ok query, later)) :
    ∃ generation : Generation document identity index, query = generation.outcome := by
  unfold embed at result
  cases generated : generate document identity index with
  | error fault => simp [generated] at result
  | ok embedding =>
      obtain ⟨generation, rfl⟩ := generate_eq_ok_iff.mp generated
      simp only [generated] at result
      split at result
      · cases result
      · cases result
        exact ⟨generation, rfl⟩

end Embedding

end QueryPaging
