import QueryPaging.Proofs.Agreement
import QueryPaging.Proofs.Claiming
import QueryPaging.Proofs.Sufficiency

/-!
# Variables of the lookup

The variables that look an object up are kept apart from the parameters of the fragment, but from
nothing else: a fragment may also use a variable that it leaves to the operation to declare, and so
may every fragment that it reaches.

- `Embedding.isHygienic_iff`: a generated query uses the variables of the lookup for nothing else
  just where the fragment and the fragments it reaches use none of them.
-/

namespace QueryPaging

/-! ## Uses besides the lookup -/

def Selection.withoutArguments : Selection → Selection
  | .field body => .field { body with arguments := [] }
  | .spread body => .spread body
  | .inline body => .inline body

/-- The definition, where the root fields of an operation pass no arguments. -/
def Definition.withoutLookup : Definition → Definition
  | .operation body =>
      .operation { body with selections := body.selections.map Selection.withoutArguments }
  | .fragment body => .fragment body

/-- Whether the variables of a lookup occur in a generated query as its arguments alone. -/
def Document.IsHygienic (identity : Identity) (query : Document) : Prop :=
  ∀ name ∈ identity.lookupNames, ∀ definition ∈ query.definitions,
    name ∉ definition.withoutLookup.references

/-- Around the spread, a lookup without its arguments refers to nothing. -/
theorem Identity.mem_references_withoutArguments {identity : Identity} {spread : Spread}
    {name : Name}
    (member : name ∈ referencesOf
      ((identity.lookupSelections (.spread spread)).map Selection.withoutArguments)) :
    name ∈ (Selection.spread spread).references := by
  unfold lookupSelections at member
  split at member
  · simpa [Selection.withoutArguments] using member
  · rw [List.map_cons, List.map_nil, Selection.withoutArguments, referencesOf_cons,
      referencesOf_nil, List.append_nil, references_field, List.mem_append, List.mem_append]
      at member
    rcases member with (argument | directive) | inside
    · cases argument
    · cases directive
    · obtain ⟨selection, among, mentioned⟩ := mem_referencesOf_iff.mp inside
      rcases List.mem_append.mp among with isKey | isSpread
      · obtain ⟨key, _, rfl⟩ := List.mem_map.mp isKey
        rw [references_plain] at mentioned
        cases mentioned
      · rw [List.mem_singleton] at isSpread
        exact isSpread ▸ mentioned

/-- A variable of the lookup is kept apart from what an author declared. -/
theorem Identity.not_mem_names_of_merge {definition : Definition} {parameters merged : VariableSet}
    {name : Name} (identity : Identity)
    (read : Document.variableSetOf definition = .ok parameters)
    (result : parameters.merge identity.lookupRequests = .ok merged)
    (isLookup : name ∈ identity.lookupNames) :
    name ∉ parameters.names := by
  intro isParameter
  rw [← identity.names_lookupRequests] at isLookup
  obtain ⟨request, wanted, rfl⟩ := List.mem_map.mp isLookup
  obtain ⟨binding, bound⟩ := VariableSet.exists_get?_eq_some_iff.mpr isParameter
  have apart := (VariableSet.suits_of_merge result wanted bound).identity
  have declared := Document.origin_eq_declared read (List.mem_of_find?_eq_some bound)
  obtain ⟨argument, _, rfl⟩ := List.mem_map.mp wanted
  simp [declared] at apart

/-! ## Generated queries -/

namespace Generation

variable {document : Document} {identity : Identity} {index : FragmentIndex}
  (generation : Generation document identity index)

theorem not_mem_names_parameters {name : Name}
    (isLookup : name ∈ identity.lookupNames) :
    name ∉ generation.parameters.names :=
  identity.not_mem_names_of_merge generation.variableSetOf_fragment generation.isDeclared isLookup

/-- Besides its lookup, the operation of a generated query uses the fragment's parameters and what
their defaults refer to. -/
theorem mem_references_operation {name : Name}
    (member : name ∈ (Definition.operation (Embedding.queryOperation generation.query
      generation.wrapper generation.parameters generation.declared
      identity)).withoutLookup.references) :
    name ∈ generation.parameters.names ∨
      name ∈ (Definition.fragment generation.fragment).references := by
  simp only [Definition.withoutLookup, Definition.references, Embedding.queryOperation,
    List.flatMap_nil, List.append_nil, List.mem_append] at member
  rcases member with declaration | selected
  · obtain ⟨declaration, among, mentioned⟩ := List.mem_flatMap.mp declaration
    obtain ⟨binding, bound, rfl⟩ := List.mem_map.mp among
    have inside : name ∈ (binding.default.map Value.references).getD [] := by
      simpa [VariableDefinition.references, VariableSet.toDefinition] using mentioned
    have isParameter := generation.mem_bindings_of_default bound inside
    exact Or.inr (Document.references_default_subset generation.variableSetOf_fragment
      isParameter inside)
  · have inSpread := Identity.mem_references_withoutArguments selected
    exact Or.inl (Embedding.mem_references_wrapperSpread inSpread)

theorem isHygienic_outcome_iff :
    generation.outcome.IsHygienic identity ↔
      ∀ name ∈ identity.lookupNames, ∀ fragment ∈ generation.fragment :: generation.included,
        name ∉ (Definition.fragment fragment).references := by
  constructor
  · intro hygienic name isLookup fragment member occurs
    rcases List.mem_cons.mp member with rfl | among
    · -- The wrapper differs from the fragment in its name, which refers to nothing.
      have isWrapper : Definition.fragment { generation.fragment with name := generation.wrapper } ∈
          generation.definitions := List.mem_cons_of_mem _ List.mem_cons_self
      exact hygienic name isLookup _ isWrapper occurs
    · have isIncluded : Definition.fragment fragment ∈ generation.definitions :=
        List.mem_cons_of_mem _ (List.mem_cons_of_mem _ (List.mem_map_of_mem among))
      exact hygienic name isLookup _ isIncluded occurs
  · intro unused name isLookup definition member occurs
    rcases List.mem_cons.mp member with rfl | later
    · rcases generation.mem_references_operation occurs with isParameter | inFragment
      · exact generation.not_mem_names_parameters isLookup isParameter
      · exact unused name isLookup _ List.mem_cons_self inFragment
    rcases List.mem_cons.mp later with rfl | isIncluded
    · exact unused name isLookup _ List.mem_cons_self occurs
    · obtain ⟨fragment, among, rfl⟩ := List.mem_map.mp isIncluded
      exact unused name isLookup _ (List.mem_cons_of_mem _ among) occurs

end Generation

/-! ## A parameter called like a key -/

namespace Sample

def user : Name := ⟨"User", by decide⟩

def keyedPart : Fragment :=
  ⟨part, user,
    [PassDirective.encodeArguments [⟨Identity.idField, Identity.idType, none⟩]],
    [itemsField (some rest) (.reference Identity.idField) []], none⟩

/-- A fragment that passes that parameter a value of its own. -/
def passingFragment : Fragment :=
  ⟨page, user, [],
    [itemsField none (.int "10") [mark],
      .spread ⟨part, [⟨PassDirective.withName, [⟨Identity.idField, .string "3"⟩]⟩]⟩], none⟩

def passing : Document :=
  Document.ofDefinition "sample.graphql" (.fragment passingFragment)

theorem reachable_passingFragment :
    FragmentIndex.reachable [(part, keyedPart)] passingFragment = .ok [keyedPart] := by
  have toPart : spreadNamesOf passingFragment.selections = [part] := by rfl
  have toNone : spreadNamesOf keyedPart.selections = [] := by rfl
  exact FragmentIndex.reachable_of_leaf toPart (by decide) rfl toNone

def passingGeneration : Generation passing .node [(part, keyedPart)] where
  fragment := passingFragment
  parameters := VariableSet.empty
  query := ⟨paginationQueryName page, isNameText_paginationQueryName page⟩
  wrapper := ⟨wrapperName page VariableSet.empty.canonicalText, isNameText_wrapperName page _⟩
  declared := ⟨[⟨Identity.idField, Identity.idType, none, .identity⟩], by decide⟩
  included := [keyedPart]
  isFragment := by rfl
  isRead := by rfl
  isQuery := Name.require_eq_ok_iff.mpr rfl
  isWrapper := Name.require_eq_ok_iff.mpr rfl
  isDeclared := by rfl
  isIncluded := reachable_passingFragment

theorem exists_embed_passing :
    ∃ later, Embedding.embed passing .node [(part, keyedPart)] (NameRegistry.seeded []) =
      (.ok passingGeneration.outcome, later) :=
  Embedding.exists_embed_of_free passingGeneration
    (NameRegistry.get?_seeded_eq_none (by simp)) (NameRegistry.get?_seeded_eq_none (by simp))

end Sample

namespace Embedding

/-- An embedded query uses the variables of the lookup for nothing but the lookup just where
neither the fragment nor any fragment that it reaches uses one of them. -/
theorem isHygienic_iff {document query : Document} {identity : Identity} {index : FragmentIndex}
    {registry later : NameRegistry}
    (result : embed document identity index registry = (.ok query, later)) :
    ∃ fragment included, document.fragment? = some fragment ∧
      index.reachable fragment = .ok included ∧
      (query.IsHygienic identity ↔
        ∀ name ∈ identity.lookupNames, ∀ body ∈ fragment :: included,
          name ∉ (Definition.fragment body).references) := by
  obtain ⟨generation, rfl⟩ := exists_generation_of_embed result
  exact ⟨generation.fragment, generation.included, generation.isFragment, generation.isIncluded,
    generation.isHygienic_outcome_iff⟩

/-- The fragment that reaches a parameter called like the key is embedded. -/
theorem isHygienic_iff_passing :
    ∃ query later, embed Sample.passing .node [(Sample.part, Sample.keyedPart)]
        (NameRegistry.seeded []) = (.ok query, later) ∧
      ∃ fragment included, Sample.passing.fragment? = some fragment ∧
        FragmentIndex.reachable [(Sample.part, Sample.keyedPart)] fragment = .ok included ∧
        (query.IsHygienic .node ↔
          ∀ name ∈ Identity.node.lookupNames, ∀ body ∈ fragment :: included,
            name ∉ (Definition.fragment body).references) := by
  obtain ⟨later, embedded⟩ := Sample.exists_embed_passing
  exact ⟨_, later, embedded, isHygienic_iff embedded⟩

/-- Not every embedded query keeps the variables of the lookup to the lookup: a fragment that it
reaches may have a parameter of that name. -/
theorem not_forall_isHygienic :
    ¬ ∀ (document query : Document) (identity : Identity) (index : FragmentIndex)
      (registry later : NameRegistry),
      embed document identity index registry = (.ok query, later) → query.IsHygienic identity := by
  intro always
  obtain ⟨later, embedded⟩ := Sample.exists_embed_passing
  have hygienic := always _ _ _ _ _ _ embedded
  have isLookup : Identity.idField ∈ Identity.node.lookupNames := by decide
  have isIncluded : Definition.fragment Sample.keyedPart ∈ Sample.passingGeneration.definitions :=
    List.mem_cons_of_mem _ (List.mem_cons_of_mem _ List.mem_cons_self)
  have occurs : Identity.idField ∈ (Definition.fragment Sample.keyedPart).references := by
    decide
  exact hygienic _ isLookup _ isIncluded occurs

end Embedding

end QueryPaging
