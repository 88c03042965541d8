import QueryPaging.Proofs.Claiming
import QueryPaging.Proofs.Sufficiency

/-!
# Fragments inside generated queries

A generated query holds the fragments that its wrapper reaches as the first phase left them. The
second phase may still give such a fragment up, and then the query holds what is not reported.

- `Pipeline.holds_inlined_iff`: an inlined fragment is reported unless the document that it comes
  from was given up.
-/

namespace QueryPaging

/-- The fragments that a generated query holds behind its wrapper. -/
def Document.inlined (query : Document) : List Fragment :=
  (query.definitions.filterMap Definition.fragment?).drop 1

/-- Whether the document is the fragment, wherever it stands in its source. -/
def Document.Defines (document : Document) (fragment : Fragment) : Prop :=
  ∃ body, document.fragment? = some body ∧ body.unplaced = fragment.unplaced

/-- Whether one of the reported documents is the fragment. -/
def Report.Holds (report : Report) (fragment : Fragment) : Prop :=
  ∃ output ∈ report.documents, output.Defines fragment

namespace Generation

variable {document : Document} {identity : Identity} {index : FragmentIndex}
  (generation : Generation document identity index)

theorem inlined_outcome :
    generation.outcome.inlined = generation.included := by
  have fragments : (generation.included.map Definition.fragment).filterMap Definition.fragment? =
      generation.included := by
    rw [List.filterMap_map]
    exact List.filterMap_some
  have behind : generation.outcome.definitions.filterMap Definition.fragment? =
      { generation.fragment with name := generation.wrapper } ::
        (generation.included.map Definition.fragment).filterMap Definition.fragment? := by
    rfl
  rw [Document.inlined, behind, fragments]
  rfl

theorem not_defines_outcome (fragment : Fragment) :
    ¬ generation.outcome.Defines fragment := by
  rintro ⟨body, isFragment, _⟩
  cases isFragment

end Generation

namespace Pipeline

/-! ## Documents that are given up -/

/-- Whether the second phase gave a document up. -/
def IsGivenUp (each : Embedded) : Prop :=
  ∃ diagnostic, each.2 = some (.error diagnostic)

theorem concluded_of_isGivenUp {each : Embedded}
    (givenUp : IsGivenUp each) :
    concluded each = each.1.authored := by
  obtain ⟨entry, outcome⟩ := each
  obtain ⟨diagnostic, rfl⟩ := givenUp
  rfl

theorem concluded_of_not_isGivenUp {each : Embedded}
    (kept : ¬ IsGivenUp each) :
    concluded each = each.1.document := by
  obtain ⟨entry, outcome⟩ := each
  match outcome with
  | none => rfl
  | some (.ok query) => rfl
  | some (.error diagnostic) => exact absurd ⟨diagnostic, rfl⟩ kept

theorem defines_concluded_iff (each : Embedded) (fragment : Fragment) :
    (concluded each).Defines fragment ↔
      (¬ IsGivenUp each ∧ each.1.document.Defines fragment) ∨
        (IsGivenUp each ∧ each.1.authored.Defines fragment) := by
  by_cases givenUp : IsGivenUp each
  · simp [concluded_of_isGivenUp givenUp, givenUp]
  · simp [concluded_of_not_isGivenUp givenUp, givenUp]

/-! ## Where inlined fragments come from -/

/-- That a fragment is what the first phase made of a document, the last one of that name. -/
structure IsLastOf (embedded : List Embedded) (fragment : Fragment) (each : Embedded) : Prop where
  made : each.1.document.fragment? = some fragment
  last : ∃ before after, embedded = before ++ each :: after ∧
    ∀ other ∈ after, ∀ body, other.1.document.fragment? = some body → body.name ≠ fragment.name

theorem IsLastOf.mem {embedded : List Embedded} {fragment : Fragment} {each : Embedded}
    (isLast : IsLastOf embedded fragment each) :
    each ∈ embedded := by
  obtain ⟨before, after, rfl, _⟩ := isLast.last
  exact List.mem_append_right _ List.mem_cons_self

section Batch

variable {schema : Schema} {config : IdentityConfig} {documents : List Document}

/-- A fragment that is reached after the first phase comes from the last document of its name. -/
theorem exists_isLastOf_of_mem_reachable {root fragment : Fragment} {included : List Fragment}
    (result : (fragmentIndex (documents.map (entryOf schema config))).reachable root =
      .ok included)
    (member : fragment ∈ included) :
    ∃ each, IsLastOf (embeddedOf schema config documents) fragment each := by
  have same : (embeddedOf schema config documents).map (·.1) =
      documents.map (entryOf schema config) := map_fst_embedAll ..
  rw [fragmentIndex, ← same, List.filterMap_map] at result
  obtain ⟨before, after, fragments, isLast⟩ :=
    FragmentIndex.exists_last_of_mem_reachable result member
  obtain ⟨earlier, others, split, _, behind⟩ := List.filterMap_eq_append_iff.mp fragments
  obtain ⟨skipped, each, later, isOthers, _, made, rest⟩ := List.filterMap_eq_cons_iff.mp behind
  refine ⟨each, made, earlier ++ skipped, later, ?_, ?_⟩
  · rw [split, isOthers, List.append_assoc]
  · intro other among body isBody
    apply isLast
    rw [← rest]
    exact List.mem_filterMap.mpr ⟨other, among, isBody⟩

theorem holds_reportOf_iff (fragment : Fragment) :
    (reportOf schema config documents).Holds fragment ↔
      ∃ each ∈ embeddedOf schema config documents, (concluded each).Defines fragment := by
  constructor
  · rintro ⟨output, reported, defines⟩
    rcases List.mem_append.mp reported with concludes | made
    · obtain ⟨each, among, rfl⟩ := List.mem_map.mp concludes
      exact ⟨each, among, defines⟩
    · rw [List.filterMap_filterMap] at made
      obtain ⟨each, among, gives⟩ := List.mem_filterMap.mp made
      obtain ⟨_, stands⟩ := stands_of_mem among
      obtain ⟨_, _, generation, _, rfl⟩ := exists_generation_of_outcome stands gives
      exact absurd defines (generation.not_defines_outcome fragment)
  · rintro ⟨each, among, defines⟩
    exact ⟨concluded each, List.mem_append_left _ (List.mem_map_of_mem among), defines⟩

end Batch

end Pipeline

/-! ## A fragment that cannot have its name -/

namespace Sample

/-- A fragment that pages, as many items at a time as it is passed. -/
def pagingFragment : Fragment :=
  ⟨part, queryType, [], [itemsField (some rest) (.reference size) [mark]], none⟩

def takingOperation : Definition :=
  .operation ⟨.query, some ⟨"Part_Pagination_Query", by decide⟩, [], [],
    [.field (FieldOf.plain items [])], none⟩

/-- A batch in which a fragment is given up after another has reached it. -/
def shadowed : List Document :=
  [pageFragment, .fragment pagingFragment, takingOperation].map
    (Document.ofDefinition "sample.graphql")

def promotedFragment : Fragment where
  name := part
  condition := queryType
  directives :=
    [PassDirective.encodeArguments
      [⟨size, .named Name.intType false, none⟩,
        ⟨PagingArgument.offset.name, .named Name.intType false, none⟩]]
  selections :=
    [.field ⟨some rest, items,
      [⟨PagingArgument.limit.name, .reference size⟩,
        ⟨PagingArgument.offset.name, .reference PagingArgument.offset.name⟩],
      [mark], [], none⟩]
  span := none

def shadowedIndex : FragmentIndex :=
  Pipeline.fragmentIndex (shadowed.map (Pipeline.entryOf schema .standard))

theorem shadowedIndex_eq :
    shadowedIndex = [(page, pagedFragment), (part, promotedFragment)] := by
  rfl

theorem reachable_shadowed :
    shadowedIndex.reachable pagedFragment = .ok [promotedFragment] := by
  have toPart : spreadNamesOf pagedFragment.selections = [part] := by rfl
  have toNone : spreadNamesOf promotedFragment.selections = [] := by rfl
  exact FragmentIndex.reachable_of_leaf toPart (by decide) (by rw [shadowedIndex_eq]; rfl) toNone

/-- The query of the page fragment, which holds the promoted fragment. -/
def shadowedGeneration : Generation paged.document (.root queryType) shadowedIndex where
  fragment := pagedFragment
  parameters := pagedVariables
  query := generation.query
  wrapper := generation.wrapper
  declared := pagedVariables
  included := [promotedFragment]
  isFragment := generation.isFragment
  isRead := generation.isRead
  isQuery := generation.isQuery
  isWrapper := generation.isWrapper
  isDeclared := generation.isDeclared
  isIncluded := reachable_shadowed

def promoted : Processed :=
  Pipeline.entryOf schema .standard
    (Document.ofDefinition "sample.graphql" (.fragment pagingFragment))

theorem exists_embedStep_promoted {registry : NameRegistry}
    (taken : registry.get? "Part_Pagination_Query" = some .authored) :
    ∃ diagnostic, (Pipeline.embedStep shadowedIndex registry promoted).1 =
      some (.error diagnostic) := by
  have known : promoted.identity = some (.root queryType) := by rfl
  rw [Pipeline.embedStep_of_identity _ _ known, Pipeline.embedOne]
  cases result : Embedding.embed promoted.document (.root queryType) shadowedIndex registry with
  | mk outcome later =>
      cases outcome with
      | error fault => exact ⟨_, rfl⟩
      | ok query =>
          obtain ⟨generation, _, free, _⟩ := Embedding.ne_authored_of_embed result
          have isFragment : promoted.document.fragment? = some promotedFragment := by rfl
          have sameFragment := generation.isFragment.symm.trans isFragment
          have isQuery := Name.require_eq_ok_iff.mp generation.isQuery
          rw [Option.some.inj sameFragment] at isQuery
          rw [isQuery] at free
          exact absurd taken free

/-- What comes of the batch: a query for the page fragment, a diagnostic for the paging one. -/
theorem exists_embeddedOf_shadowed :
    ∃ diagnostic, Pipeline.embeddedOf schema .standard (Pipeline.authored shadowed) =
      [(paged, some (.ok shadowedGeneration.outcome)), (promoted, some (.error diagnostic)),
        (Processed.untouched (Document.ofDefinition "sample.graphql" takingOperation), none)] := by
  let registry := NameRegistry.seeded ((Pipeline.authored shadowed).map (·.name))
  have names : (Pipeline.authored shadowed).map (·.name) =
      ["Page", "Part", "Part_Pagination_Query"] := by rfl
  have apart : ∀ name ∈ (Pipeline.authored shadowed).map (·.name),
      name.toList.take 5 ≠ "Page_".toList := by
    rw [names]
    decide
  obtain ⟨later, embedded⟩ := Embedding.exists_embed_of_free shadowedGeneration
    (free_names apart).1 (free_names apart).2
  have first : Pipeline.embedStep shadowedIndex registry paged =
      (some (.ok shadowedGeneration.outcome), later) :=
    Pipeline.embedStep_of_embed rfl embedded
  have kept := Embedding.keeps_embed paged.document (.root queryType) shadowedIndex
    (NameRegistry.isDistinct_seeded ((Pipeline.authored shadowed).map (·.name)))
  rw [embedded] at kept
  have taken : later.get? "Part_Pagination_Query" = some .authored := by
    rw [kept.authored, NameRegistry.get?_seeded, names]
    decide
  obtain ⟨diagnostic, second⟩ := exists_embedStep_promoted taken
  have way : Pipeline.embeddedOf schema .standard (Pipeline.authored shadowed) =
      Pipeline.embedAll shadowedIndex registry
        [paged, promoted,
          Processed.untouched (Document.ofDefinition "sample.graphql" takingOperation)] := by
    rfl
  refine ⟨diagnostic, ?_⟩
  rw [way, Pipeline.embedAll, first, Pipeline.embedAll, second]
  rfl

theorem mem_generated_shadowed :
    shadowedGeneration.outcome ∈
      (Pipeline.reportOf schema .standard (Pipeline.authored shadowed)).generated := by
  obtain ⟨diagnostic, way⟩ := exists_embeddedOf_shadowed
  refine List.mem_filter.mpr ⟨List.mem_append_right _ ?_, rfl⟩
  rw [way]
  exact List.mem_cons_self

theorem mem_inlined_shadowed :
    promotedFragment ∈ shadowedGeneration.outcome.inlined := by
  rw [shadowedGeneration.inlined_outcome]
  exact List.mem_cons_self

theorem not_holds_shadowed :
    ¬ (Pipeline.reportOf schema .standard (Pipeline.authored shadowed)).Holds
      promotedFragment := by
  intro holds
  obtain ⟨diagnostic, way⟩ := exists_embeddedOf_shadowed
  rw [Pipeline.holds_reportOf_iff, way] at holds
  obtain ⟨each, among, body, isBody, same⟩ := holds
  simp only [List.mem_cons, List.not_mem_nil, or_false] at among
  rcases among with rfl | rfl | rfl
  · cases isBody
    have sameName : page = part := congrArg Fragment.name same
    exact absurd sameName (by decide)
  · cases isBody
    have sameDirectives : [] = promotedFragment.directives := congrArg Fragment.directives same
    exact absurd sameDirectives (by decide)
  · cases isBody

end Sample

namespace Pipeline

/-- A fragment that a generated query holds comes from the last document of its name, and it is
reported unless that document was given up, and even then if some document is the same. -/
theorem holds_inlined_iff {schema : Schema} {config : IdentityConfig} {workers : Nat}
    {batch : List Document} {report : Report} {query : Document} {fragment : Fragment}
    (result : run schema config workers batch = .ok report)
    (member : query ∈ report.generated)
    (isInlined : fragment ∈ query.inlined) :
    ∃ each, IsLastOf (embeddedOf schema config (authored batch)) fragment each ∧
      (report.Holds fragment ↔ ¬ IsGivenUp each ∨
        ∃ other ∈ embeddedOf schema config (authored batch),
          (¬ IsGivenUp other ∧ other.1.document.Defines fragment) ∨
            (IsGivenUp other ∧ other.1.authored.Defines fragment)) := by
  have isReport := eq_reportOf_of_run result
  subst isReport
  obtain ⟨document, _, passage, identity, generation, _, rfl⟩ :=
    exists_generation_of_mem (fun _ among => isGenerated_of_mem_authored among) member
  rw [generation.inlined_outcome] at isInlined
  obtain ⟨each, isLast⟩ := exists_isLastOf_of_mem_reachable generation.isIncluded isInlined
  refine ⟨each, isLast, ?_⟩
  rw [holds_reportOf_iff]
  simp only [defines_concluded_iff]
  constructor
  · exact Or.inr
  · rintro (kept | holds)
    · exact ⟨each, isLast.mem, Or.inl ⟨kept, fragment, isLast.made, rfl⟩⟩
    · exact holds

/-- The query of the page fragment holds a fragment that was given up. -/
theorem holds_inlined_iff_shadowed :
    ∃ report query, run Sample.schema .standard 1 Sample.shadowed = .ok report ∧
      query ∈ report.generated ∧ Sample.promotedFragment ∈ query.inlined ∧
      ∃ each, IsLastOf (embeddedOf Sample.schema .standard (authored Sample.shadowed))
          Sample.promotedFragment each ∧
        (report.Holds Sample.promotedFragment ↔ ¬ IsGivenUp each ∨
          ∃ other ∈ embeddedOf Sample.schema .standard (authored Sample.shadowed),
            (¬ IsGivenUp other ∧ other.1.document.Defines Sample.promotedFragment) ∨
              (IsGivenUp other ∧ other.1.authored.Defines Sample.promotedFragment)) := by
  have hasRoot : Sample.schema.queryRoot? = some Sample.queryType := by decide
  have result := run_eq hasRoot .standard 1 Sample.shadowed
  exact ⟨_, _, result, Sample.mem_generated_shadowed, Sample.mem_inlined_shadowed,
    holds_inlined_iff result Sample.mem_generated_shadowed Sample.mem_inlined_shadowed⟩

/-- Not every inlined fragment is reported: the second phase may give up a fragment that another
query already holds. -/
theorem not_forall_holds_inlined :
    ¬ ∀ (schema : Schema) (config : IdentityConfig) (workers : Nat) (batch : List Document)
      (report : Report), run schema config workers batch = .ok report →
      ∀ query ∈ report.generated, ∀ fragment ∈ query.inlined, report.Holds fragment := by
  intro always
  have hasRoot : Sample.schema.queryRoot? = some Sample.queryType := by decide
  have holds := always Sample.schema .standard 1 Sample.shadowed _
    (run_eq hasRoot .standard 1 Sample.shadowed) _ Sample.mem_generated_shadowed
    Sample.promotedFragment Sample.mem_inlined_shadowed
  exact Sample.not_holds_shadowed holds

end Pipeline

end QueryPaging
