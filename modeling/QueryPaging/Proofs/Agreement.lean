import QueryPaging.Proofs.Batches
import QueryPaging.Proofs.Naming
import QueryPaging.Proofs.Reaching

/-!
# Queries of equal fragments

Fragments that differ in their places alone get queries with the same names and the same hash. Where
all paginated fragments of one name are so alike, their queries get in each other's way nowhere.

- `Embedding.matches_of_generate`: equal fragments have matching queries.
- `Pipeline.coherent_paginated`: queries that share a name match.
-/

namespace QueryPaging

/-- What a document that is a fragment declares, the fragment declares. -/
theorem Document.variableSetOf_of_fragment? {document : Document} {fragment : Fragment}
    {parameters : VariableSet}
    (isFragment : document.fragment? = some fragment)
    (isRead : document.variableSet = .ok parameters) :
    variableSetOf (.fragment fragment) = .ok parameters := by
  cases primary : document.primary? with
  | none => simp [fragment?, primary] at isFragment
  | some definition =>
      cases definition with
      | operation body => simp [fragment?, primary, Definition.fragment?] at isFragment
      | fragment body =>
          simp only [fragment?, primary, Option.bind_some, Definition.fragment?,
            Option.some.injEq] at isFragment
          rw [variableSet_eq primary, isFragment] at isRead
          exact isRead

namespace Generation

variable {document other : Document} {identity : Identity} {index : FragmentIndex}
  (generation : Generation document identity index) (another : Generation other identity index)

theorem variableSetOf_fragment :
    Document.variableSetOf (.fragment generation.fragment) = .ok generation.parameters :=
  Document.variableSetOf_of_fragment? generation.isFragment generation.isRead

section Equal

variable (same : generation.fragment.unplaced = another.fragment.unplaced)

include same

theorem name_eq :
    generation.fragment.name = another.fragment.name :=
  (Fragment.head_eq_of_unplaced_eq same).1

theorem parameters_eq :
    generation.parameters = another.parameters := by
  have read : ∀ fragment : Fragment, Document.variableSetOf (.fragment fragment.unplaced) =
      Document.variableSetOf (.fragment fragment) := fun _ => rfl
  have left := generation.variableSetOf_fragment
  rw [← read, same, read, another.variableSetOf_fragment] at left
  exact (Except.ok.inj left).symm

theorem query_eq :
    generation.query = another.query := by
  have left := generation.isQuery
  rw [generation.name_eq another same, another.isQuery] at left
  exact (Except.ok.inj left).symm

theorem wrapper_eq :
    generation.wrapper = another.wrapper := by
  have left := generation.isWrapper
  rw [generation.name_eq another same, generation.parameters_eq another same, another.isWrapper]
    at left
  exact (Except.ok.inj left).symm

theorem declared_eq :
    generation.declared = another.declared := by
  have left := generation.isDeclared
  rw [generation.parameters_eq another same, another.isDeclared] at left
  exact (Except.ok.inj left).symm

theorem included_eq :
    generation.included = another.included := by
  have left := generation.isIncluded
  rw [← FragmentIndex.reachable_unplaced, same, FragmentIndex.reachable_unplaced,
    another.isIncluded] at left
  exact (Except.ok.inj left).symm

/-- The texts of the queries are the same, as they show no places. -/
theorem hash_eq :
    generation.hash = another.hash := by
  have sameWrapper : (Definition.fragment
        { generation.fragment with name := generation.wrapper }).unplaced =
      (Definition.fragment { another.fragment with name := another.wrapper }).unplaced := by
    rw [generation.wrapper_eq another same]
    exact congrArg (fun body : Fragment => Definition.fragment { body with name := another.wrapper })
      same
  have sameText : normalizedText generation.definitions = normalizedText another.definitions := by
    refine normalizedText_congr ?_
    rw [definitions, definitions, generation.query_eq another same,
      generation.parameters_eq another same, generation.declared_eq another same,
      generation.included_eq another same, List.map_cons, List.map_cons, sameWrapper,
      generation.wrapper_eq another same]
    rfl
  rw [hash, hash, sameText]

end Equal

end Generation

namespace Embedding

structure Matches (left right : Embedding) : Prop where
  query : left.query = right.query
  wrapper : left.wrapper = right.wrapper
  hash : left.hash = right.hash

variable {document other : Document} {identity : Identity} {index : FragmentIndex}
  {left right : Embedding}

/-- Fragments that differ in their places alone have matching queries. -/
theorem matches_of_generate
    (fromDocument : generate document identity index = .ok left)
    (fromOther : generate other identity index = .ok right)
    (same : document.fragment?.map Fragment.unplaced = other.fragment?.map Fragment.unplaced) :
    left.Matches right := by
  obtain ⟨generation, rfl⟩ := generate_eq_ok_iff.mp fromDocument
  obtain ⟨another, rfl⟩ := generate_eq_ok_iff.mp fromOther
  rw [generation.isFragment, another.isFragment] at same
  have sameFragment := Option.some.inj same
  exact ⟨generation.query_eq another sameFragment, generation.wrapper_eq another sameFragment,
    generation.hash_eq another sameFragment⟩

theorem exists_names_of_generate
    (generated : generate document identity index = .ok left) :
    ∃ fragment, document.fragment? = some fragment ∧
      left.query.text = paginationQueryName fragment.name ∧
      ∃ parameters, left.wrapper.text = wrapperName fragment.name parameters := by
  obtain ⟨generation, rfl⟩ := generate_eq_ok_iff.mp generated
  exact ⟨generation.fragment, generation.isFragment, Name.require_eq_ok_iff.mp generation.isQuery,
    _, Name.require_eq_ok_iff.mp generation.isWrapper⟩

/-- No query is called like the wrapper of any query. -/
theorem query_ne_wrapper {otherIdentity : Identity} {otherIndex : FragmentIndex}
    (fromDocument : generate document identity index = .ok left)
    (fromOther : generate other otherIdentity otherIndex = .ok right) :
    left.query.text ≠ right.wrapper.text := by
  obtain ⟨_, _, isQuery, _⟩ := exists_names_of_generate fromDocument
  obtain ⟨_, _, _, _, isWrapper⟩ := exists_names_of_generate fromOther
  rw [isQuery, isWrapper]
  exact (wrapperName_ne_paginationQueryName _ _ _).symm

end Embedding

/-- That the queries of some fragments get in each other's way nowhere: those that share a name
match. -/
def Coherent (index : FragmentIndex) (items : List (Processed × Identity)) : Prop :=
  ∀ first ∈ items, ∀ second ∈ items, ∀ left right,
    Embedding.generate first.1.document first.2 index = .ok left →
    Embedding.generate second.1.document second.2 index = .ok right →
    left.query.text = right.query.text ∨ left.wrapper.text = right.wrapper.text →
    left.Matches right

theorem Passage.resolve_of_identity {schema : Schema} {config : IdentityConfig}
    {document : Document} {fragment : Fragment} {identity : Identity}
    (passage : Passage schema config document)
    (isFragment : passage.outcome.fragment? = some fragment)
    (known : passage.identity = some identity) :
    Identity.resolve schema config fragment.condition = .ok identity := by
  have isIdentified := passage.isIdentified
  have promoted : passage.promoted.fragment? = some fragment := isFragment
  rw [Pipeline.identityOf, promoted, known] at isIdentified
  cases resolved : Identity.resolve schema config fragment.condition with
  | error fault => simp [resolved, Except.map] at isIdentified
  | ok found =>
      simp only [resolved, Except.map, Except.ok.injEq, Option.some.injEq] at isIdentified
      rw [isIdentified]

namespace Pipeline

def paginated (schema : Schema) (config : IdentityConfig) (documents : List Document) :
    List (Processed × Identity) :=
  embeddable (documents.map (entryOf schema config))

/-- Whether fragments of one name are the same but for their places. -/
def AgreeOnNames (items : List (Processed × Identity)) : Prop :=
  ∀ first ∈ items, ∀ second ∈ items, ∀ left right,
    first.1.document.fragment? = some left → second.1.document.fragment? = some right →
    left.name = right.name → left.unplaced = right.unplaced

variable {schema : Schema} {config : IdentityConfig} {documents : List Document}

/-- The identity of a paginated fragment is the one of its type condition. -/
theorem resolve_of_mem_paginated {item : Processed × Identity} {fragment : Fragment}
    (member : item ∈ paginated schema config documents)
    (isFragment : item.1.document.fragment? = some fragment) :
    Identity.resolve schema config fragment.condition = .ok item.2 := by
  obtain ⟨entry, among, isItem⟩ := List.mem_filterMap.mp member
  obtain ⟨document, _, rfl⟩ := List.mem_map.mp among
  obtain ⟨identity, known, rfl⟩ := Option.map_eq_some_iff.mp isItem
  obtain ⟨passage, entry⟩ := exists_passage_of_identity known
  rw [entry] at known isFragment
  exact passage.resolve_of_identity isFragment known

theorem coherent_paginated (index : FragmentIndex)
    (agree : AgreeOnNames (paginated schema config documents)) :
    Coherent index (paginated schema config documents) := by
  intro first isFirst second isSecond left right fromFirst fromSecond share
  obtain ⟨body, isBody, leftQuery, _, leftWrapper⟩ :=
    Embedding.exists_names_of_generate fromFirst
  obtain ⟨other, isOther, rightQuery, _, rightWrapper⟩ :=
    Embedding.exists_names_of_generate fromSecond
  have sameName : body.name = other.name := by
    rcases share with query | wrapper
    · rw [leftQuery, rightQuery] at query
      exact Name.eq_of_text_eq (paginationQueryName_inj.mp query)
    · rw [leftWrapper, rightWrapper] at wrapper
      exact Name.eq_of_text_eq (eq_of_wrapperName_eq wrapper)
  have same := agree first isFirst second isSecond body other isBody isOther sameName
  have sameCondition := (Fragment.head_eq_of_unplaced_eq same).2
  have sameIdentity : first.2 = second.2 := by
    have resolved := resolve_of_mem_paginated isFirst isBody
    rw [sameCondition, resolve_of_mem_paginated isSecond isOther] at resolved
    exact (Except.ok.inj resolved).symm
  rw [sameIdentity] at fromFirst
  refine Embedding.matches_of_generate fromFirst fromSecond ?_
  rw [isBody, isOther, Option.map_some, Option.map_some, same]

end Pipeline

end QueryPaging
