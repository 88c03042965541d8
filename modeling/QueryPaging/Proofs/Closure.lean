import QueryPaging.Proofs.Sufficiency
import QueryPaging.Proofs.Traversal

/-!
# Closed queries

A generated query holds every fragment that it spreads, and holds it once. Only spreads of the
fragment that the query is made for may lead nowhere, as that stands in it under another name.

- `Generation.isClosed_outcome`: a query is closed if its wrapper is called like none of the
  fragments behind it.
- `Pipeline.reachable_and_isClosed`: which fragments a query holds, and in which order.
-/

namespace QueryPaging

namespace Document

/-- The fragments of a document, in order. -/
def fragments (document : Document) : List Fragment :=
  document.definitions.filterMap Definition.fragment?

/-- That each fragment of a document stands in it once, and that each one that is spread stands in
it, apart from the one it is made for. -/
structure IsClosed (document : Document) (origin : String) : Prop where
  distinct : (document.fragments.map (·.name)).Nodup
  resolved : ∀ definition ∈ document.definitions,
    ∀ name ∈ spreadNamesOf definition.selections, name.text ≠ origin →
      ∃ fragment ∈ document.fragments, fragment.name = name

/-- Whether a document that is a fragment is called like it. -/
def IsCalledLikeFragment (document : Document) : Prop :=
  ∀ fragment, document.fragment? = some fragment → document.name = fragment.name

theorem isCalledLikeFragment_ofDefinition (source : String) (definition : Definition) :
    (ofDefinition source definition).IsCalledLikeFragment := by
  intro fragment isFragment
  cases definition with
  | operation body => cases isFragment
  | fragment body =>
      cases isFragment
      rfl

end Document

/-! ## Fragments behind the wrapper -/

namespace FragmentIndex

variable {index : FragmentIndex} {root fragment : Fragment} {included : List Fragment} {name : Name}

/-- That an index knows each fragment by its own name. -/
def IsNamed (index : FragmentIndex) : Prop :=
  ∀ name fragment, index.get? name = some fragment → fragment.name = name

theorem isNamed_ofFragments (fragments : List Fragment) :
    (ofFragments fragments).IsNamed :=
  fun _ _ found => (exists_last_of_get?_ofFragments found).1

theorem mem_reachable_iff
    (result : index.reachable root = .ok included) :
    fragment ∈ included ↔ ∃ name, index.Reaches root name ∧ index.get? name = some fragment := by
  have given := reachable_eq_ok_iff.mp result
  have asSome : fragment ∈ included ↔ some fragment ∈ included.map some := by simp
  rw [asSome, ← given, List.mem_map]
  simp only [mem_order_iff]

theorem exists_mem_of_reaches
    (result : index.reachable root = .ok included)
    (reaches : index.Reaches root name) :
    ∃ fragment ∈ included, index.get? name = some fragment := by
  cases found : index.get? name with
  | none =>
      obtain ⟨fault, failed⟩ := exists_reachable_eq_error_iff.mpr ⟨name, reaches, found⟩
      rw [result] at failed
      cases failed
  | some fragment => exact ⟨fragment, (mem_reachable_iff result).mpr ⟨name, reaches, found⟩, rfl⟩

theorem map_name_of_reachable
    (named : index.IsNamed)
    (result : index.reachable root = .ok included) :
    included.map (·.name) = index.order root := by
  have given := reachable_eq_ok_iff.mp result
  have same : (index.order root).map some = (included.map (·.name)).map some := by
    calc (index.order root).map some
        = (index.order root).map fun name => (index.get? name).map (·.name) := by
            apply List.map_congr_left
            intro name member
            obtain ⟨fragment, _, found⟩ := exists_mem_of_reaches result (mem_order_iff.mp member)
            rw [found, Option.map_some, named name fragment found]
      _ = ((index.order root).map index.get?).map (Option.map (·.name)) := by
            rw [List.map_map]
            rfl
      _ = (included.map (·.name)).map some := by
            rw [given, List.map_map, List.map_map]
            rfl
  exact (List.map_injective_iff.mpr (fun _ _ => Option.some.inj) same).symm

end FragmentIndex

/-! ## Generated queries -/

theorem spreadNamesOf_eq_flatMap (selections : List Selection) :
    spreadNamesOf selections = selections.flatMap Selection.spreadNames := by
  induction selections with
  | nil => rfl
  | cons first others inductionHypothesis =>
      rw [spreadNamesOf, inductionHypothesis, List.flatMap_cons]

/-- A lookup spreads nothing but what stands in it. -/
theorem Identity.spreadNamesOf_lookupSelections (identity : Identity) (spread : Spread) :
    spreadNamesOf (identity.lookupSelections (.spread spread)) = [spread.fragment] := by
  have noKeys : ∀ keys : List Name,
      (keys.map fun key => Selection.field (FieldOf.plain key [])).flatMap Selection.spreadNames =
        [] := by
    intro keys
    rw [List.flatMap_eq_nil_iff]
    intro selection member
    obtain ⟨key, _, rfl⟩ := List.mem_map.mp member
    rfl
  unfold lookupSelections
  cases identity.lookupField? with
  | none => rfl
  | some lookup =>
      simp only [spreadNamesOf, Selection.spreadNames, FieldOf.plain, List.append_nil]
      rw [spreadNamesOf_eq_flatMap, List.flatMap_append]
      have none := noKeys (Name.typename :: identity.keyFields.filter (· != Name.typename))
      simp only [FieldOf.plain] at none
      rw [none]
      rfl

namespace Generation

variable {document : Document} {identity : Identity} {index : FragmentIndex}
  (generation : Generation document identity index)

theorem fragments_outcome :
    generation.outcome.fragments =
      { generation.fragment with name := generation.wrapper } :: generation.included := by
  have behind : (generation.included.map Definition.fragment).filterMap Definition.fragment? =
      generation.included := by
    rw [List.filterMap_map]
    exact List.filterMap_some
  exact congrArg (_ :: ·) behind

/-- A generated query is closed where no fragment behind the wrapper has its name. -/
theorem isClosed_outcome
    (named : index.IsNamed)
    (apart : ∀ fragment ∈ generation.included, fragment.name ≠ generation.wrapper) :
    generation.outcome.IsClosed generation.fragment.name := by
  have names := FragmentIndex.map_name_of_reachable named generation.isIncluded
  have held : ∀ name, index.Reaches generation.fragment name →
      ∃ fragment ∈ generation.outcome.fragments, fragment.name = name := by
    intro name reaches
    obtain ⟨fragment, among, found⟩ :=
      FragmentIndex.exists_mem_of_reaches generation.isIncluded reaches
    rw [generation.fragments_outcome]
    exact ⟨fragment, List.mem_cons_of_mem _ among, named name fragment found⟩
  constructor
  case distinct =>
    rw [generation.fragments_outcome, List.map_cons, List.nodup_cons]
    constructor
    · intro again
      obtain ⟨fragment, among, same⟩ := List.mem_map.mp again
      exact apart fragment among same
    · rw [names]
      exact FragmentIndex.nodup_order index generation.fragment
  case resolved =>
    intro definition member name spread other
    have fresh : name ∉ [generation.fragment.name] := by
      intro isOrigin
      rw [List.mem_singleton.mp isOrigin] at other
      exact other rfl
    rcases List.mem_cons.mp member with rfl | behind
    · -- The operation spreads the wrapper alone.
      have isWrapper : name = generation.wrapper := by
        have only := identity.spreadNamesOf_lookupSelections
          ⟨generation.wrapper, if generation.parameters.isEmpty then [] else
            [PassDirective.encodeWith generation.parameters.names]⟩
        have among : name ∈ [generation.wrapper] := only ▸ spread
        exact List.mem_singleton.mp among
      rw [generation.fragments_outcome, isWrapper]
      exact ⟨_, List.mem_cons_self, rfl⟩
    rcases List.mem_cons.mp behind with rfl | isIncluded
    · exact held name (FragmentIndex.reaches_iff_reached.mpr (.pending spread fresh))
    · obtain ⟨fragment, among, rfl⟩ := List.mem_map.mp isIncluded
      obtain ⟨via, reaches, found⟩ :=
        (FragmentIndex.mem_reachable_iff generation.isIncluded).mp among
      have reached := FragmentIndex.reaches_iff_reached.mp reaches
      exact held name (FragmentIndex.reaches_iff_reached.mpr (.spread reached found spread fresh))

end Generation

namespace Pipeline

variable {schema : Schema} {config : IdentityConfig} {documents : List Document}

theorem exists_document_of_reachable {root fragment : Fragment} {included : List Fragment}
    (called : ∀ document ∈ documents, document.IsCalledLikeFragment)
    (result : (fragmentIndex (documents.map (entryOf schema config))).reachable root =
      .ok included)
    (member : fragment ∈ included) :
    ∃ document ∈ documents, document.name = fragment.name := by
  obtain ⟨before, after, fragments, _⟩ := FragmentIndex.exists_last_of_mem_reachable result member
  have among : fragment ∈ (documents.map (entryOf schema config)).filterMap
      (·.document.fragment?) := by
    rw [fragments]
    exact List.mem_append_right before List.mem_cons_self
  obtain ⟨entry, isEntry, isFragment⟩ := List.mem_filterMap.mp among
  obtain ⟨document, isDocument, rfl⟩ := List.mem_map.mp isEntry
  obtain ⟨original, isOriginal, sameName⟩ := fragment?_entryOf isFragment
  refine ⟨document, isDocument, ?_⟩
  rw [called document isDocument original isOriginal, sameName]

theorem isClosed_of_mayReport {workers : Nat} {batch : List Document} {report : Report}
    {accounts : List Account} {query : Document}
    (called : ∀ document ∈ authored batch, document.IsCalledLikeFragment)
    (reported : MayReport schema config workers batch report accounts)
    (member : query ∈ report.generated) :
    ∃ origin, query.origin? = some origin ∧ query.IsClosed origin := by
  obtain ⟨document, identity, generation, rfl, wrapperApart⟩ := reported.exists_generation member
  refine ⟨generation.fragment.name, rfl, generation.isClosed_outcome ?_ ?_⟩
  · exact FragmentIndex.isNamed_ofFragments _
  · intro fragment among same
    obtain ⟨other, isOther, isCalled⟩ :=
      exists_document_of_reachable called generation.isIncluded among
    -- A generated name is none of the documents', and every fragment is called like one.
    apply wrapperApart
    rw [← same, ← isCalled]
    exact List.mem_map_of_mem isOther

/-- A fragment reaches the fragments that spreads lead to from it, each once and in depth-first
pre-order of first occurrence, and fails to if one of them cannot be had. So every generated query
holds what it spreads, whichever turns the workers take. -/
theorem reachable_and_isClosed :
    (∀ (index : FragmentIndex) (root : Fragment),
      (index.order root).Nodup ∧
        (∀ name, name ∈ index.order root ↔ index.Reaches root name) ∧
        (∀ included, index.reachable root = .ok included ↔
          (index.order root).map index.get? = included.map some) ∧
        ((∃ fault, index.reachable root = .error fault) ↔
          ∃ name, index.Reaches root name ∧ index.get? name = none)) ∧
      ∀ (schema : Schema) (config : IdentityConfig) (workers : Nat) (batch : List Document)
        (report : Report), (∀ document ∈ authored batch, document.IsCalledLikeFragment) →
        (run schema config workers batch = .ok report ∨
          ∃ accounts, MayReport schema config workers batch report accounts) →
        ∀ query ∈ report.generated,
          ∃ origin, query.origin? = some origin ∧ query.IsClosed origin := by
  constructor
  · intro index root
    exact ⟨index.nodup_order root, fun _ => FragmentIndex.mem_order_iff,
      fun _ => FragmentIndex.reachable_eq_ok_iff, FragmentIndex.exists_reachable_eq_error_iff⟩
  · intro schema config workers batch report called reports query member
    obtain ⟨accounts, reported⟩ := reports.elim exists_mayReport_of_run id
    exact isClosed_of_mayReport called reported member

/-- The query of the page fragment holds the one fragment that its wrapper spreads. -/
theorem reachable_and_isClosed_sample :
    (∀ document ∈ authored Sample.batch, document.IsCalledLikeFragment) ∧
      ((fragmentIndex Sample.entries).order Sample.pagedFragment).map
          (fragmentIndex Sample.entries).get? = [some Sample.partBody] ∧
      ∃ report, run Sample.schema .standard 1 Sample.batch = .ok report ∧
        Sample.generation.outcome ∈ report.generated ∧
        ∃ origin, Sample.generation.outcome.origin? = some origin ∧
          Sample.generation.outcome.IsClosed origin := by
  have hasRoot : Sample.schema.queryRoot? = some Sample.queryType := by decide
  have result := run_eq hasRoot .standard 1 Sample.batch
  have called : ∀ document ∈ authored Sample.batch, document.IsCalledLikeFragment := by
    intro document among
    obtain ⟨definition, _, rfl⟩ := List.mem_map.mp (List.mem_filter.mp among).1
    exact Document.isCalledLikeFragment_ofDefinition _ definition
  obtain ⟨traverses, closes⟩ := reachable_and_isClosed
  obtain ⟨_, _, gives, _⟩ := traverses (fragmentIndex Sample.entries) Sample.pagedFragment
  exact ⟨called, (gives _).mp Sample.generation.isIncluded, _, result, Sample.mem_generated,
    closes _ _ _ _ _ called (.inl result) _ Sample.mem_generated⟩

end Pipeline

end QueryPaging
