import QueryPaging.Proofs.Annotations
import QueryPaging.Proofs.Claiming
import QueryPaging.Proofs.Hygiene

/-!
# What a hash tells apart

The hash of a generated query is the hash of what is sent, so it does not see the directives of the
pass. The operation is known by it all the same, with the values it passes to the wrapper: they are
the variables that it declares besides those of its lookup. The wrapper and the fragments behind it
are known but for the directives of the pass inside them.

- `Generation.queryOperation_eq`: what is sent of a query determines its operation.
- `Generation.sameContent_outcome_iff`: two queries of which the same is sent are the same just where
  their fragments carry the same directives of the pass.
-/

namespace QueryPaging

namespace Document

def hash? (document : Document) : Option String :=
  document.generated.map (·.hash)

/-- Whether two documents hold the same definitions, wherever these stood. -/
def SameContent (left right : Document) : Prop :=
  left.definitions.map Definition.unplaced = right.definitions.map Definition.unplaced

/-- Whether two documents are the same without the directives of the pass. -/
def SameWhenSent (left right : Document) : Prop :=
  (stripDefinitions left.definitions).map Definition.unplaced =
    (stripDefinitions right.definitions).map Definition.unplaced

/-- The directives of the pass in the fragments of a generated query, place by place. -/
def fragmentAnnotations (document : Document) : List (List (List (Option Directive))) :=
  (document.definitions.drop 1).map Definition.annotations

/-- That the texts of two documents tell apart what is sent of them, and that their hashes tell
apart the texts. -/
structure TellsApart (left right : Document) : Prop where
  hashing : contentHash (normalizedText left.definitions) =
      contentHash (normalizedText right.definitions) →
    normalizedText left.definitions = normalizedText right.definitions
  printing : normalizedText left.definitions = normalizedText right.definitions →
    left.SameWhenSent right

theorem sameContent_iff_annotations (left right : Document) :
    left.SameContent right ↔
      left.SameWhenSent right ∧
        left.definitions.map Definition.annotations =
          right.definitions.map Definition.annotations := by
  unfold SameContent SameWhenSent stripDefinitions
  rw [List.map_map, List.map_map]
  generalize left.definitions = first
  generalize right.definitions = second
  induction first generalizing second with
  | nil => cases second <;> simp
  | cons definition others inductionHypothesis =>
      cases second with
      | nil => simp
      | cons other rest =>
          have here := @Definition.unplaced_eq_iff definition other
          have behind := inductionHypothesis rest
          simp only [List.map_cons, List.cons.injEq, Function.comp_apply]
          tauto

theorem normalizedText_eq_of_sameWhenSent {left right : Document}
    (sent : left.SameWhenSent right) :
    normalizedText left.definitions = normalizedText right.definitions := by
  unfold SameWhenSent at sent
  rw [normalizedText, normalizedText, renderFlat, renderFlat, ← renderDefinitions_unplaced,
    sent, renderDefinitions_unplaced]

end Document

/-! ## The lookup of a query -/

theorem bareSelections_append (initial later : List Selection) :
    bareSelections (initial ++ later) = bareSelections initial ++ bareSelections later := by
  induction initial with
  | nil => rfl
  | cons selection others inductionHypothesis =>
      rw [List.cons_append, bareSelections_cons, bareSelections_cons, inductionHypothesis,
        List.cons_append]

namespace Identity

/-- A lookup carries no directives besides those of the spread in it. -/
theorem bareSelections_lookupSelections (identity : Identity) (spread : Spread) :
    bareSelections (identity.lookupSelections (.spread spread)) =
      identity.lookupSelections
        (.spread { spread with directives := foreignDirectives spread.directives }) := by
  have bareSpread : bareSelections [.spread spread] =
      [.spread { spread with directives := foreignDirectives spread.directives }] := by
    rw [bareSelections_cons, bare_spread]
    rfl
  have bareKeys : ∀ keys : List Name,
      bareSelections (keys.map fun key => .field (FieldOf.plain key [])) =
        keys.map fun key => .field (FieldOf.plain key []) := by
    intro keys
    induction keys with
    | nil => rfl
    | cons key others inductionHypothesis =>
        rw [List.map_cons, bareSelections_cons, inductionHypothesis, bare_field]
        rfl
  unfold lookupSelections
  cases identity.lookupField? with
  | none => exact bareSpread
  | some lookup =>
      simp only
      rw [bareSelections_cons, bare_field]
      simp only [FieldOf.plain]
      have selections := bareSelections_append
        ((Name.typename :: identity.keyFields.filter (· != Name.typename)).map
          fun key => .field (FieldOf.plain key [])) [.spread spread]
      rw [bareKeys, bareSpread] at selections
      simp only [FieldOf.plain] at selections
      rw [selections]
      rfl

/-- Two lookups that are the same around some spread pass the same variables, and are the same
around any. -/
theorem lookupSelections_inj {left right : Identity} {spread other : Spread}
    (same : left.lookupSelections (.spread spread) = right.lookupSelections (.spread other)) :
    spread = other ∧ left.lookupNames = right.lookupNames ∧
      ∀ selection, left.lookupSelections selection = right.lookupSelections selection := by
  have names : ∀ identity : Identity, identity.lookupField? = none → identity.lookupNames = [] := by
    intro identity isRoot
    cases identity with
    | root type => rfl
    | node => cases isRoot
    | resolver type queryField arguments => cases isRoot
  unfold lookupSelections at same ⊢
  cases isLeft : left.lookupField? with
  | none =>
      cases isRight : right.lookupField? with
      | none =>
          simp only [isLeft, isRight, List.cons.injEq, Selection.spread.injEq, and_true] at same
          refine ⟨same, ?_, fun _ => rfl⟩
          rw [names left isLeft, names right isRight]
      | some lookup => simp [isLeft, isRight] at same
  | some lookup =>
      cases isRight : right.lookupField? with
      | none => simp [isLeft, isRight] at same
      | some otherLookup =>
          simp only [isLeft, isRight, FieldOf.plain, List.cons.injEq, Selection.field.injEq,
            FieldOf.mk.injEq, and_true, true_and] at same
          obtain ⟨sameLookup, passed, selected⟩ := same
          obtain ⟨keys, spreads⟩ := List.append_inj' selected rfl
          have sameSpread : spread = other := by
            simpa using spreads
          have sameNames : left.lookupNames = right.lookupNames := by
            have argumentNames := congrArg (List.map Argument.name) passed
            rw [List.map_map, List.map_map] at argumentNames
            exact argumentNames
          refine ⟨sameSpread, sameNames, fun selection => ?_⟩
          simp only [FieldOf.plain, sameLookup, passed, keys]

end Identity

/-! ## Generated queries -/

namespace Generation

variable {document : Document} {identity : Identity} {index : FragmentIndex}
  {otherDocument : Document} {otherIdentity : Identity} {otherIndex : FragmentIndex}
  (generation : Generation document identity index)
  (another : Generation otherDocument otherIdentity otherIndex)

/-- The parameters of the fragment are the variables of the query that its lookup does not pass. -/
theorem names_parameters_eq :
    generation.parameters.names =
      generation.declared.names.filter fun name => decide (name ∉ identity.lookupNames) := by
  obtain ⟨added, extended, fromLookup⟩ :=
    (VariableSet.merge_extends generation.isDeclared).bindings
  -- All variables that are added are passed to the lookup, and no parameter is.
  have parameters : generation.parameters.names.filter
      (fun name => decide (name ∉ identity.lookupNames)) = generation.parameters.names := by
    apply List.filter_eq_self.mpr
    intro name isParameter
    have apart : name ∉ identity.lookupNames := fun isLookup =>
      generation.not_mem_names_parameters isLookup isParameter
    simpa using apart
  have others : (added.map (·.name)).filter
      (fun name => decide (name ∉ identity.lookupNames)) = [] := by
    apply List.filter_eq_nil_iff.mpr
    intro name member
    obtain ⟨binding, among, rfl⟩ := List.mem_map.mp member
    obtain ⟨request, wanted, rfl⟩ := fromLookup binding among
    have isLookup : request.name ∈ identity.lookupNames := by
      rw [← identity.names_lookupRequests]
      exact List.mem_map_of_mem wanted
    simp [VariableRequest.binding, isLookup]
  have whole : generation.declared.names =
      generation.parameters.names ++ added.map (·.name) := by
    rw [VariableSet.names, extended, List.map_append]
    rfl
  rw [whole, List.filter_append, parameters, others, List.append_nil]

theorem foreignDirectives_wrapperSpread (wrapper : Name) (parameters : VariableSet) :
    ∃ directives, Embedding.wrapperSpread wrapper parameters = .spread ⟨wrapper, directives⟩ ∧
      foreignDirectives directives = [] := by
  refine ⟨_, rfl, ?_⟩
  by_cases isEmpty : parameters.isEmpty = true
  · simp [isEmpty, foreignDirectives]
  · have isOwn : PassDirective.isOwn (PassDirective.encodeWith parameters.names) = true := by
      simp [PassDirective.isOwn, PassDirective.encodeWith]
    simp [isEmpty, foreignDirectives, isOwn]

theorem wrapperSpread_congr {wrapper : Name} {left right : VariableSet}
    (same : left.names = right.names) :
    Embedding.wrapperSpread wrapper left = Embedding.wrapperSpread wrapper right := by
  have isEmpty : ∀ set : VariableSet, set.isEmpty = set.names.isEmpty := by
    intro set
    simp [VariableSet.isEmpty, VariableSet.names]
  rw [Embedding.wrapperSpread, Embedding.wrapperSpread, isEmpty, isEmpty, same]

section Sent

variable (sent : generation.outcome.SameWhenSent another.outcome)

include sent

/-- What is sent of a query shows its names, and determines its operation. -/
theorem queryOperation_eq :
    generation.query = another.query ∧ generation.wrapper = another.wrapper ∧
      Embedding.queryOperation generation.query generation.wrapper generation.parameters
          generation.declared identity =
        Embedding.queryOperation another.query another.wrapper another.parameters
          another.declared otherIdentity := by
  have operations := (List.cons.inj sent).1
  simp only [Embedding.queryOperation, Definition.stripped, Definition.unplaced,
    Definition.operation.injEq, Operation.mk.injEq, Option.some.injEq, true_and, and_true]
    at operations
  obtain ⟨sameQuery, declarations, selections⟩ := operations
  obtain ⟨directives, isSpread, none⟩ :=
    foreignDirectives_wrapperSpread generation.wrapper generation.parameters
  obtain ⟨others, isOther, otherNone⟩ :=
    foreignDirectives_wrapperSpread another.wrapper another.parameters
  have bare : bareSelections (identity.lookupSelections (.spread ⟨generation.wrapper, directives⟩)) =
      bareSelections (otherIdentity.lookupSelections (.spread ⟨another.wrapper, others⟩)) := by
    rw [← isSpread, ← isOther]
    exact selections
  rw [Identity.bareSelections_lookupSelections, Identity.bareSelections_lookupSelections] at bare
  obtain ⟨spreads, lookupNames, lookups⟩ := Identity.lookupSelections_inj bare
  have sameWrapper : generation.wrapper = another.wrapper := (Spread.mk.inj spreads).1
  have sameDeclared : generation.declared.names = another.declared.names := by
    have names := congrArg (List.map VariableDefinition.name) declarations
    rw [VariableSet.definitions, VariableSet.definitions, List.map_map, List.map_map] at names
    exact names
  have sameParameters : generation.parameters.names = another.parameters.names := by
    rw [generation.names_parameters_eq, another.names_parameters_eq, sameDeclared, lookupNames]
  have sameSpread : Embedding.wrapperSpread generation.wrapper generation.parameters =
      Embedding.wrapperSpread another.wrapper another.parameters := by
    rw [sameWrapper, wrapperSpread_congr sameParameters]
  refine ⟨sameQuery, sameWrapper, ?_⟩
  simp only [Embedding.queryOperation, sameQuery, declarations, sameSpread, lookups]

theorem sameContent_outcome_iff :
    generation.outcome.SameContent another.outcome ↔
      generation.outcome.fragmentAnnotations = another.outcome.fragmentAnnotations := by
  obtain ⟨_, _, operations⟩ := generation.queryOperation_eq another sent
  rw [Document.sameContent_iff_annotations]
  constructor
  · rintro ⟨_, annotations⟩
    have behind := congrArg (List.drop 1) annotations
    rw [← List.map_drop, ← List.map_drop] at behind
    exact behind
  · intro annotations
    refine ⟨sent, ?_⟩
    have first := congrArg (fun body => (Definition.operation body).annotations) operations
    exact List.cons_eq_cons.mpr ⟨first, annotations⟩

end Sent

theorem hash_eq_iff_sameWhenSent
    (tells : generation.outcome.TellsApart another.outcome) :
    generation.hash = another.hash ↔ generation.outcome.SameWhenSent another.outcome := by
  constructor
  · intro same
    exact tells.printing (tells.hashing same)
  · intro sent
    have text : normalizedText generation.definitions = normalizedText another.definitions :=
      Document.normalizedText_eq_of_sameWhenSent sent
    rw [hash, hash, text]

/-- The query of another fragment of the same name with the same parameters. -/
def varied {included : List Fragment} {fragment : Fragment}
    (isFragment : otherDocument.fragment? = some fragment)
    (sameName : fragment.name = generation.fragment.name)
    (isRead : otherDocument.variableSet = .ok generation.parameters)
    (isIncluded : otherIndex.reachable fragment = .ok included) :
    Generation otherDocument identity otherIndex where
  fragment := fragment
  parameters := generation.parameters
  query := generation.query
  wrapper := generation.wrapper
  declared := generation.declared
  included := included
  isFragment := isFragment
  isRead := isRead
  isQuery := by rw [sameName, generation.isQuery]
  isWrapper := by rw [sameName, generation.isWrapper]
  isDeclared := generation.isDeclared
  isIncluded := isIncluded

end Generation

/-! ## Two values passed to one parameter -/

namespace Sample

/-- A fragment that passes a value to the parameter of another. -/
def spreadingFragment (passed : Value) : Fragment :=
  ⟨page, user, [],
    [itemsField none (.int "10") [mark],
      .spread ⟨part, [⟨PassDirective.withName, [⟨size, passed⟩]⟩]⟩], none⟩

def spreading (passed : Value) : Document :=
  Document.ofDefinition "sample.graphql" (.fragment (spreadingFragment passed))

theorem reachable_spreadingFragment (passed : Value) :
    FragmentIndex.reachable [(part, partBody)] (spreadingFragment passed) = .ok [partBody] := by
  have toPart : spreadNamesOf (spreadingFragment passed).selections = [part] := by rfl
  have different : part ≠ page := by decide
  have toNone : spreadNamesOf partBody.selections = [] := by rfl
  exact FragmentIndex.reachable_of_leaf toPart different rfl toNone

def spreadingGeneration (passed : Value) :
    Generation (spreading passed) .node [(part, partBody)] :=
  passingGeneration.varied (by rfl : (spreading passed).fragment? = some (spreadingFragment passed))
    rfl (by rfl) (reachable_spreadingFragment passed)

theorem exists_embed_spreading (passed : Value) :
    ∃ later, Embedding.embed (spreading passed) .node [(part, partBody)]
      (NameRegistry.seeded []) = (.ok (spreadingGeneration passed).outcome, later) :=
  Embedding.exists_embed_of_free (spreadingGeneration passed)
    (NameRegistry.get?_seeded_eq_none (by simp)) (NameRegistry.get?_seeded_eq_none (by simp))

theorem sameWhenSent_spreading (passed other : Value) :
    (spreadingGeneration passed).outcome.SameWhenSent (spreadingGeneration other).outcome := by
  rfl

theorem tellsApart_spreading (passed other : Value) :
    (spreadingGeneration passed).outcome.TellsApart (spreadingGeneration other).outcome where
  hashing := fun _ =>
    Document.normalizedText_eq_of_sameWhenSent (sameWhenSent_spreading passed other)
  printing := fun _ => sameWhenSent_spreading passed other

theorem not_sameContent_spreading :
    ¬ (spreadingGeneration (.int "5")).outcome.SameContent
      (spreadingGeneration (.int "6")).outcome := by
  rw [Generation.sameContent_outcome_iff _ _ (sameWhenSent_spreading _ _)]
  decide

end Sample

namespace Embedding

variable {document other left right : Document} {identity otherIdentity : Identity}
  {index otherIndex : FragmentIndex} {registry otherRegistry later otherLater : NameRegistry}

/-- The hashes of two embedded queries are the same just where what is sent of them is, and then
the queries are the same just where their fragments carry the same directives of the pass. The name
of the second can be claimed after the first just where what is sent of them is the same. -/
theorem sameContent_iff_of_hash_eq
    (first : embed document identity index registry = (.ok left, later))
    (second : embed other otherIdentity otherIndex otherRegistry = (.ok right, otherLater))
    (tells : left.TellsApart right) :
    (left.hash? = right.hash? ↔ left.SameWhenSent right) ∧
      (left.hash? = right.hash? →
        (left.SameContent right ↔ left.fragmentAnnotations = right.fragmentAnnotations)) ∧
      (left.name = right.name → ∀ hash, right.hash? = some hash →
        ((∃ claimed, later.claim right.name hash = .ok claimed) ↔ left.SameWhenSent right)) := by
  obtain ⟨generation, rfl, claimed, takesQuery, takesWrapper⟩ := embed_eq_ok_iff.mp first
  obtain ⟨another, rfl⟩ := exists_generation_of_embed second
  have hashes : generation.outcome.hash? = another.outcome.hash? ↔
      generation.outcome.SameWhenSent another.outcome := by
    rw [← generation.hash_eq_iff_sameWhenSent another tells]
    exact Option.some_inj
  refine ⟨hashes, ?_, ?_⟩
  · intro sameHash
    exact generation.sameContent_outcome_iff another (hashes.mp sameHash)
  · intro sameName hash isHash
    have held : later.get? another.outcome.name = some (.generated generation.hash) := by
      have afterQuery := NameRegistry.get?_of_claim takesQuery generation.query
      rw [if_pos rfl] at afterQuery
      rw [← sameName]
      exact NameRegistry.get?_of_claim_of_held takesWrapper afterQuery
    rw [← hashes, isHash]
    constructor
    · rintro ⟨after, claims⟩
      rcases NameRegistry.claim_eq_ok_iff.mp claims with ⟨free, _⟩ | ⟨again, _⟩
      · rw [held] at free
        cases free
      · rw [held, Option.some.injEq, Claim.generated.injEq] at again
        exact congrArg some again
    · intro sameHash
      have same : generation.hash = hash := Option.some.inj sameHash
      subst same
      exact ⟨later, NameRegistry.claim_eq_ok_iff.mpr (Or.inr ⟨held, rfl⟩)⟩

/-- Two fragments that pass different values have queries of one hash, which differ. -/
theorem sameContent_iff_of_hash_eq_spreading :
    ∃ left right later otherLater,
      embed (Sample.spreading (.int "5")) .node [(Sample.part, Sample.partBody)]
        (NameRegistry.seeded []) = (.ok left, later) ∧
      embed (Sample.spreading (.int "6")) .node [(Sample.part, Sample.partBody)]
        (NameRegistry.seeded []) = (.ok right, otherLater) ∧
      left.TellsApart right ∧
      (left.hash? = right.hash? ↔ left.SameWhenSent right) ∧
      (left.hash? = right.hash? →
        (left.SameContent right ↔ left.fragmentAnnotations = right.fragmentAnnotations)) ∧
      (left.name = right.name → ∀ hash, right.hash? = some hash →
        ((∃ claimed, later.claim right.name hash = .ok claimed) ↔ left.SameWhenSent right)) := by
  obtain ⟨later, first⟩ := Sample.exists_embed_spreading (.int "5")
  obtain ⟨otherLater, second⟩ := Sample.exists_embed_spreading (.int "6")
  have tells := Sample.tellsApart_spreading (.int "5") (.int "6")
  exact ⟨_, _, later, otherLater, first, second, tells,
    sameContent_iff_of_hash_eq first second tells⟩

/-- Not all queries of one hash are the same: the hash does not see what a fragment passes to
another. -/
theorem not_forall_sameContent_of_hash_eq :
    ¬ ∀ (document other left right : Document) (identity otherIdentity : Identity)
      (index otherIndex : FragmentIndex) (registry otherRegistry later otherLater : NameRegistry),
      embed document identity index registry = (.ok left, later) →
      embed other otherIdentity otherIndex otherRegistry = (.ok right, otherLater) →
      left.TellsApart right → left.hash? = right.hash? → left.SameContent right := by
  intro always
  obtain ⟨later, first⟩ := Sample.exists_embed_spreading (.int "5")
  obtain ⟨otherLater, second⟩ := Sample.exists_embed_spreading (.int "6")
  have tells := Sample.tellsApart_spreading (.int "5") (.int "6")
  have hashes : (Sample.spreadingGeneration (.int "5")).hash =
      (Sample.spreadingGeneration (.int "6")).hash :=
    (Generation.hash_eq_iff_sameWhenSent _ _ tells).mpr (Sample.sameWhenSent_spreading _ _)
  exact Sample.not_sameContent_spreading
    (always _ _ _ _ _ _ _ _ _ _ _ _ first second tells (congrArg some hashes))

end Embedding

end QueryPaging
