import QueryPaging.Proofs.Reporting

/-!
# Independence of siblings

What becomes of a document depends on few of the documents beside it. An operation, or a document
without a marked field, fares the same beside any. A paginated fragment fares the same beside any
that leave its names alone and give it the same fragments to spread.

- `FragmentIndex.reach_congr`: a search looks up what it reaches, and nothing else.
- `Pipeline.getElem?_accountsFrom`: a document without rivals fares as it would alone.
-/

namespace QueryPaging

/-! ## Fragments that are looked up -/

namespace FragmentIndex

/-- The names that a search from pending spreads comes to look up. -/
inductive Reached (index : FragmentIndex) (seen pending : List Name) : Name → Prop where
  | pending {name : Name}
      (member : name ∈ pending)
      (unseen : name ∉ seen) :
      Reached index seen pending name
  | spread {via name : Name} {fragment : Fragment}
      (reached : Reached index seen pending via)
      (found : index.get? via = some fragment)
      (member : name ∈ spreadNamesOf fragment.selections)
      (unseen : name ∉ seen) :
      Reached index seen pending name

variable {index other : FragmentIndex} {seen pending others : List Name} {name first : Name}
  {body : Fragment}

theorem Reached.unseen
    (reached : Reached index seen pending name) :
    name ∉ seen := by
  cases reached with
  | pending member unseen => exact unseen
  | spread reached found member unseen => exact unseen

theorem Reached.mono {more : List Name}
    (reached : Reached index seen pending name)
    (included : pending ⊆ more) :
    Reached index seen more name := by
  induction reached with
  | pending member unseen => exact .pending (included member) unseen
  | spread reached found member unseen inductionHypothesis =>
      exact .spread inductionHypothesis found member unseen

theorem get?_without
    (different : name ≠ first) :
    (without first index).get? name = index.get? name := by
  induction index with
  | nil => rfl
  | cons entry rest inductionHypothesis =>
      obtain ⟨key, fragment⟩ := entry
      unfold without at inductionHypothesis ⊢
      by_cases isFirst : key = first
      · have isOther : key ≠ name := by
          rw [isFirst]
          exact Ne.symm different
        rw [List.filter_cons_of_neg (by simp [isFirst]), inductionHypothesis, Table.get?_cons,
          if_neg isOther]
      · rw [List.filter_cons_of_pos (by simpa using isFirst), Table.get?_cons, Table.get?_cons,
          inductionHypothesis]

/-- What is looked up after a fragment was found was to be looked up before. -/
theorem Reached.of_without
    (unseen : first ∉ seen)
    (found : index.get? first = some body)
    (reached : Reached (without first index) (first :: seen)
      (spreadNamesOf body.selections ++ others) name) :
    Reached index seen (first :: others) name := by
  have isFirst : Reached index seen (first :: others) first :=
    .pending List.mem_cons_self unseen
  induction reached with
  | pending member fresh =>
      have stillUnseen := fun seenBefore => fresh (List.mem_cons_of_mem first seenBefore)
      rcases List.mem_append.mp member with nested | later
      · exact .spread isFirst found nested stillUnseen
      · exact .pending (List.mem_cons_of_mem first later) stillUnseen
  | spread reached isFound member fresh inductionHypothesis =>
      have different := List.ne_of_not_mem_cons reached.unseen
      rw [get?_without different] at isFound
      exact .spread inductionHypothesis isFound member
        fun seenBefore => fresh (List.mem_cons_of_mem first seenBefore)

/-- A search in two indexes comes to the same if they agree on the names that it looks up. The
induction is on the search in the first. -/
theorem reach_congr
    (agree : ∀ name, Reached index seen pending name → index.get? name = other.get? name) :
    reach index seen pending = reach other seen pending := by
  fun_induction reach index seen pending generalizing other with
  | case1 index seen => rw [reach]
  | case2 index seen first others isSeen inductionHypothesis =>
      have still : ∀ name, Reached index seen others name → index.get? name = other.get? name :=
        fun name reached => agree name (reached.mono (List.subset_cons_self first others))
      rw [inductionHypothesis still, reach, if_pos isSeen]
  | case3 index seen first others unseen missing =>
      have alsoMissing : other.get? first = none := by
        rw [← agree first (.pending List.mem_cons_self unseen), missing]
      rw [reach, if_neg unseen]
      split
      · rfl
      · next isFound =>
          rw [alsoMissing] at isFound
          cases isFound
  | case4 index seen first others unseen body found nested =>
      rename_i inductionHypothesis
      have alsoFound : other.get? first = some body := by
        rw [← agree first (.pending List.mem_cons_self unseen), found]
      have behind : ∀ name, Reached (without first index) (first :: seen) (nested ++ others) name →
          (without first index).get? name = (without first other).get? name := by
        intro name reached
        have different := List.ne_of_not_mem_cons reached.unseen
        rw [get?_without different, get?_without different]
        exact agree name (reached.of_without unseen found)
      rw [inductionHypothesis behind, reach_of_found others unseen alsoFound]
      cases reach (without first other) (first :: seen) (nested ++ others) <;> rfl

/-- That two indexes give a fragment the same to spread, directly or through others. -/
def AgreeFor (left right : FragmentIndex) (root : Fragment) : Prop :=
  ∀ name, Reached left [root.name] (spreadNamesOf root.selections) name →
    left.get? name = right.get? name

end FragmentIndex

/-! ## Embedding beside others -/

/-- The names that the query of a fragment would take. -/
def Document.generatedNames (document : Document) : List String :=
  match document.fragment?, document.variableSet with
  | some fragment, .ok parameters =>
      [paginationQueryName fragment.name, wrapperName fragment.name parameters.canonicalText]
  | _, _ => []

namespace Embedding

variable {document : Document} {identity : Identity} {index other : FragmentIndex}

theorem generate_congr
    (agree : ∀ fragment, document.fragment? = some fragment → index.AgreeFor other fragment) :
    generate document identity index = generate document identity other := by
  unfold generate
  cases isFragment : document.fragment? with
  | none => rfl
  | some fragment =>
      have same : index.reachable fragment = other.reachable fragment :=
        FragmentIndex.reach_congr (agree fragment isFragment)
      simp only [same]

theorem generatedNames_of_generate {embedding : Embedding}
    (generated : generate document identity index = .ok embedding) :
    document.generatedNames = [embedding.query.text, embedding.wrapper.text] := by
  obtain ⟨generation, rfl⟩ := generate_eq_ok_iff.mp generated
  rw [Document.generatedNames, generation.isFragment, generation.isRead]
  rw [Name.require_eq_ok_iff.mp generation.isQuery, Name.require_eq_ok_iff.mp generation.isWrapper]

end Embedding

namespace Interleaving

/-- A fragment that is embedded alone looks up no names but its own. -/
theorem alone_congr {index other : FragmentIndex} {taken names : List String} {item : Item}
    (sameQuery : Embedding.generate item.1.document item.2 index =
      Embedding.generate item.1.document item.2 other)
    (sameNames : ∀ name ∈ item.1.document.generatedNames, name ∈ taken ↔ name ∈ names) :
    alone index taken item = alone other names item := by
  cases generated : Embedding.generate item.1.document item.2 index with
  | error fault =>
      have fails := sameQuery.symm.trans generated
      rw [alone_of_fault generated, alone_of_fault fails]
  | ok embedding =>
      have made := sameQuery.symm.trans generated
      rw [Embedding.generatedNames_of_generate generated] at sameNames
      have query := sameNames embedding.query.text (by simp)
      have wrapper := sameNames embedding.wrapper.text (by simp)
      by_cases takenQuery : embedding.query.text ∈ taken
      · rw [alone_of_takenQuery generated takenQuery,
          alone_of_takenQuery made (query.mp takenQuery)]
      by_cases takenWrapper : embedding.wrapper.text ∈ taken
      · rw [alone_of_takenWrapper generated takenQuery takenWrapper,
          alone_of_takenWrapper made (fun isTaken => takenQuery (query.mpr isTaken))
            (wrapper.mp takenWrapper)]
      · rw [alone_of_isFree generated ⟨takenQuery, takenWrapper⟩,
          alone_of_isFree made ⟨fun isTaken => takenQuery (query.mpr isTaken),
            fun isTaken => takenWrapper (wrapper.mpr isTaken)⟩]

end Interleaving

/-! ## A document in its batch -/

/-- The documents before and after one in a batch. -/
structure Siblings where
  before : List Document
  after : List Document

namespace Siblings

variable (siblings : Siblings) (document : Document)

def batch : List Document :=
  siblings.before ++ document :: siblings.after

/-- Where an authored document stands among the authored documents. -/
def place : Nat :=
  (Pipeline.authored siblings.before).length

theorem authored_batch
    (isAuthored : document.isGenerated = false) :
    Pipeline.authored (siblings.batch document) =
      Pipeline.authored siblings.before ++ document :: Pipeline.authored siblings.after := by
  unfold batch Pipeline.authored
  rw [List.filter_append, List.filter_cons_of_pos (by simp [isAuthored])]

end Siblings

namespace Pipeline

open Interleaving

section Siblings

variable (schema : Schema) (config : IdentityConfig) (document : Document)

/-- That no other paginated fragment beside a document has its name. -/
def IsUnrivalled (siblings : Siblings) : Prop :=
  ∀ sibling ∈ authored (siblings.before ++ siblings.after),
    (entryOf schema config sibling).identity ≠ none →
    ∀ own other, document.fragment? = some own → sibling.fragment? = some other →
      other.name ≠ own.name

/-- That a paginated fragment meets the same in two batches, as far as it can tell. -/
structure Alike (left right : Siblings) : Prop where
  unrivalled : IsUnrivalled schema config document left
  alsoUnrivalled : IsUnrivalled schema config document right
  names : ∀ name ∈ (entryOf schema config document).document.generatedNames,
    name ∈ (authored (left.batch document)).map (·.name) ↔
      name ∈ (authored (right.batch document)).map (·.name)
  fragments : ∀ fragment, (entryOf schema config document).document.fragment? = some fragment →
    (indexOf schema config (authored (left.batch document))).AgreeFor
      (indexOf schema config (authored (right.batch document))) fragment

end Siblings

variable {schema : Schema} {config : IdentityConfig} {document : Document}

/-- Operations, documents without a marked field and those that fail in the first phase are done
with when the second begins. -/
theorem identity_eq_none
    (early : document.fragment? = none ∨ ¬ document.IsMarked ∨
      ∃ diagnostic, process schema config document = .error diagnostic) :
    (entryOf schema config document).identity = none := by
  rcases early with isOperation | unmarked | ⟨diagnostic, fails⟩
  · cases known : (entryOf schema config document).identity with
    | none => rfl
    | some identity =>
        obtain ⟨passage, entry⟩ := exists_passage_of_identity known
        have none := passage.identity_eq_none_iff.mpr isOperation
        rw [entry, none] at known
        cases known
  · have isNone : process schema config document = .ok none := by
      rw [process, PaginatedField.find_eq_ok_none_iff.mpr unmarked]
      rfl
    rw [entryOf, isNone]
    rfl
  · rw [entryOf, fails]
    rfl

/-- A fragment keeps its name in the first phase, if it is made to page and if it is not. -/
theorem fragment?_entryOf {fragment : Fragment}
    (isFragment : (entryOf schema config document).document.fragment? = some fragment) :
    ∃ original, document.fragment? = some original ∧ original.name = fragment.name := by
  unfold entryOf settled at isFragment
  split at isFragment
  · next result =>
      obtain ⟨passage, rfl⟩ := process_eq_ok_some_iff.mp result
      have kept := passage.fragment?_outcome
      have isOutcome : passage.outcome.fragment? = some fragment := isFragment
      rw [isOutcome, Option.map_some] at kept
      obtain ⟨original, isOriginal, same⟩ := Option.map_eq_some_iff.mp kept.symm
      exact ⟨original, isOriginal, congrArg Prod.fst same⟩
  · exact ⟨fragment, isFragment, rfl⟩

/-- Where no sibling has the name of a fragment, its names are in no dispute. -/
theorem isUndisputed_of_isUnrivalled {siblings : Siblings} {identity : Identity}
    {taken : List String} {index : FragmentIndex}
    (isAuthored : document.isGenerated = false)
    (known : (entryOf schema config document).identity = some identity)
    (unrivalled : IsUnrivalled schema config document siblings) :
    IsUndisputed index taken
      (paginated schema config (authored (siblings.batch document)))
      (entryOf schema config document, identity) := by
  intro embedding made _ item member rival makes sameQuery
  obtain ⟨entry, among, isItem⟩ := List.mem_filterMap.mp member
  obtain ⟨sibling, isSibling, rfl⟩ := List.mem_map.mp among
  obtain ⟨other, isKnown, rfl⟩ := Option.map_eq_some_iff.mp isItem
  by_cases same : sibling = document
  · subst same
    rw [known, Option.some.injEq] at isKnown
    subst isKnown
    have sameRival := Except.ok.inj (makes.symm.trans made)
    rw [sameRival]
  · have beside : sibling ∈ authored (siblings.before ++ siblings.after) := by
      rw [siblings.authored_batch document isAuthored] at isSibling
      rw [authored, List.filter_append]
      rcases List.mem_append.mp isSibling with before | rest
      · exact List.mem_append_left _ before
      · exact List.mem_append_right _ ((List.mem_cons.mp rest).resolve_left same)
    obtain ⟨body, isBody, isQuery, _⟩ := Embedding.exists_names_of_generate made
    obtain ⟨rivalBody, isRivalBody, isRivalQuery, _⟩ := Embedding.exists_names_of_generate makes
    obtain ⟨own, isOwn, ownName⟩ := fragment?_entryOf isBody
    obtain ⟨theirs, isTheirs, theirName⟩ := fragment?_entryOf isRivalBody
    rw [isQuery, isRivalQuery, paginationQueryName_inj] at sameQuery
    have sameName : theirs.name = own.name := by
      rw [theirName, ownName]
      exact Name.eq_of_text_eq sameQuery
    have isPaginated : (entryOf schema config sibling).identity ≠ none := by simp [isKnown]
    exact absurd sameName (unrivalled sibling beside isPaginated own theirs isOwn isTheirs)

/-- The outcome of a document that is embedded alone, if it is a paginated fragment. -/
def aloneOf (schema : Schema) (config : IdentityConfig) (documents : List Document)
    (entry : Processed) : Option Outcome :=
  entry.identity.map fun identity =>
    alone (indexOf schema config documents) (documents.map (·.name)) (entry, identity)

theorem getElem?_accountsFrom {siblings : Siblings} {workers : Nat} {crew : Crew}
    (isAuthored : document.isGenerated = false)
    (unrivalled : (entryOf schema config document).identity ≠ none →
      IsUnrivalled schema config document siblings)
    (stands : MayStand schema config (authored (siblings.batch document)) workers crew)
    (isDone : crew.IsDone) :
    (accountsFrom schema config (authored (siblings.batch document))
        crew.outcomes)[siblings.place]? =
      some (accountOf schema config
        (entryOf schema config document, aloneOf schema config
          (authored (siblings.batch document)) (entryOf schema config document))) := by
  obtain ⟨items, known⟩ := results_of_done stands isDone
  generalize isEmbedded : assigned
    ((authored (siblings.batch document)).map (entryOf schema config)) crew.outcomes = embedded
  have atPlace : (embedded.map (·.1))[siblings.place]? =
      some (entryOf schema config document) := by
    rw [← isEmbedded, map_fst_assigned, siblings.authored_batch document isAuthored,
      List.getElem?_map, Siblings.place, List.getElem?_append_right (Nat.le_refl _), Nat.sub_self]
    rfl
  rw [List.getElem?_map] at atPlace
  obtain ⟨each, isEach, isEntry⟩ := Option.map_eq_some_iff.mp atPlace
  have member : each ∈ assigned
      ((authored (siblings.batch document)).map (entryOf schema config))
      (crew.results.map (·.2)) := by
    rw [crew.map_snd_results, isEmbedded]
    exact List.mem_of_getElem? isEach
  have outcome : each.2 = aloneOf schema config (authored (siblings.batch document))
      (entryOf schema config document) := by
    rw [aloneOf]
    rcases exists_of_mem_assigned items member with ⟨none, untouched⟩ | ⟨identity, made, rest⟩
    · rw [isEntry] at none
      rw [none, untouched]
      rfl
    · obtain ⟨isKnown, isMade, among⟩ := rest
      rw [isEntry] at isKnown among
      have isPaginated : (entryOf schema config document).identity ≠ none := by simp [isKnown]
      have here := (known _ among).here
        (isUndisputed_of_isUnrivalled isAuthored isKnown (unrivalled isPaginated))
      rw [isMade, isKnown, Option.map_some]
      exact congrArg some here
  rw [accountsFrom, isEmbedded, List.getElem?_map, isEach, Option.map_some, ← outcome, ← isEntry]

/-- A document fares the same in two batches, whatever else is in them and however the workers take
turns, if it is no paginated fragment, or if the batches are alike to it. -/
theorem exists_account_of_alike {left right : Siblings} {workers others : Nat}
    {report other : Report} {accounts otherAccounts : List Account}
    (isAuthored : document.isGenerated = false)
    (apart : (document.fragment? = none ∨ ¬ document.IsMarked ∨
        ∃ diagnostic, process schema config document = .error diagnostic) ∨
      Alike schema config document left right)
    (reported : MayReport schema config workers (left.batch document) report accounts)
    (otherReported : MayReport schema config others (right.batch document) other otherAccounts) :
    ∃ account, account.input = document ∧
      accounts[left.place]? = some account ∧ IsListed report left.place account ∧
      otherAccounts[right.place]? = some account ∧ IsListed other right.place account := by
  have listed := @reported.isListed
  have otherListed := @otherReported.isListed
  obtain ⟨crew, stands, isDone, _, rfl⟩ := reported
  obtain ⟨otherCrew, otherStands, otherDone, _, rfl⟩ := otherReported
  have alike : (entryOf schema config document).identity ≠ none →
      Alike schema config document left right :=
    fun isPaginated => apart.resolve_left fun early => isPaginated (identity_eq_none early)
  have here := getElem?_accountsFrom isAuthored (fun isPaginated => (alike isPaginated).unrivalled)
    stands isDone
  have there := getElem?_accountsFrom isAuthored
    (fun isPaginated => (alike isPaginated).alsoUnrivalled) otherStands otherDone
  have same : aloneOf schema config (authored (left.batch document))
      (entryOf schema config document) = aloneOf schema config (authored (right.batch document))
        (entryOf schema config document) := by
    rw [aloneOf, aloneOf]
    cases known : (entryOf schema config document).identity with
    | none => rfl
    | some identity =>
        have meets := alike (by simp [known])
        have same := @alone_congr _ _ _ _ (entryOf schema config document, identity)
          (Embedding.generate_congr meets.fragments) meets.names
        rw [Option.map_some, Option.map_some, same]
  rw [← same] at there
  exact ⟨_, (entryOf_keeps schema config document).1, here, listed _ _ here, there,
    otherListed _ _ there⟩

end Pipeline

/-! ## The page fragment in two batches -/

namespace Sample

def written (definition : Definition) : Document :=
  Document.ofDefinition "sample.graphql" definition

def restFragment : Definition :=
  .fragment ⟨rest, queryType, [], [itemsField none (.int "3") [mark]], none⟩

def fewSiblings : Siblings :=
  ⟨[], [written partFragment]⟩

def moreSiblings : Siblings :=
  ⟨[written twiceOperation, written restFragment, written partFragment], []⟩

theorem isUnrivalled_page {siblings : Siblings}
    (among : Pipeline.authored (siblings.before ++ siblings.after) ⊆
      [written twiceOperation, written restFragment, written partFragment]) :
    Pipeline.IsUnrivalled schema .standard (written pageFragment) siblings := by
  intro sibling member _ own other isOwn isOther
  cases isOwn
  have isSibling := among member
  simp only [List.mem_cons, List.not_mem_nil, or_false] at isSibling
  rcases isSibling with rfl | rfl | rfl
  · cases isOther
  · cases isOther
    decide
  · cases isOther
    decide

/-- The page fragment looks up the part, which spreads nothing. -/
theorem eq_part_of_reached {index : FragmentIndex} {name : Name}
    (found : index.get? part = some partBody)
    (reached : index.Reached [pagedFragment.name] (spreadNamesOf pagedFragment.selections) name) :
    name = part := by
  induction reached with
  | pending member unseen => exact List.mem_singleton.mp member
  | spread reached isFound member unseen inductionHypothesis =>
      subst inductionHypothesis
      rw [found, Option.some.injEq] at isFound
      subst isFound
      cases member

theorem alike_siblings :
    Pipeline.Alike schema .standard (written pageFragment) fewSiblings moreSiblings where
  unrivalled := by
    refine isUnrivalled_page ?_
    change [written partFragment] ⊆ _
    simp
  alsoUnrivalled := isUnrivalled_page (List.Subset.refl _)
  names := by
    have isNames : paged.document.generatedNames =
        [generation.query.text, generation.wrapper.text] :=
      Embedding.generatedNames_of_generate (Embedding.generate_eq_ok_iff.mpr ⟨generation, rfl⟩)
    have free : ∀ authored : List String,
        (∀ name ∈ authored, name.toList.take 5 ≠ "Page_".toList) →
        ∀ name ∈ paged.document.generatedNames, name ∉ authored := by
      intro authored apart name member isAuthored
      obtain ⟨freeQuery, freeWrapper⟩ := free_names apart
      have taken : (NameRegistry.seeded authored).get? name = some .authored := by
        rw [NameRegistry.get?_seeded, if_pos isAuthored]
      rw [isNames] at member
      simp only [List.mem_cons, List.not_mem_nil, or_false] at member
      rcases member with rfl | rfl
      · rw [freeQuery] at taken
        cases taken
      · rw [freeWrapper] at taken
        cases taken
    intro name member
    constructor
    · intro isAuthored
      exact absurd isAuthored (free _ (by decide) name member)
    · intro isAuthored
      exact absurd isAuthored (free _ (by decide) name member)
  fragments := by
    intro fragment isFragment name reached
    have isPaged : fragment = pagedFragment := (Option.some.inj isFragment).symm
    subst isPaged
    rw [eq_part_of_reached (by rfl) reached]
    rfl

end Sample

namespace Pipeline

/-- The page fragment fares the same beside the part alone, and beside the part, another paginated
fragment and an operation that fails. -/
theorem exists_account_of_alike_siblings :
    ∃ report other accounts otherAccounts,
      MayReport Sample.schema .standard 1
        (Sample.fewSiblings.batch (Sample.written Sample.pageFragment)) report accounts ∧
      MayReport Sample.schema .standard 4
        (Sample.moreSiblings.batch (Sample.written Sample.pageFragment)) other otherAccounts ∧
      Alike Sample.schema .standard (Sample.written Sample.pageFragment)
        Sample.fewSiblings Sample.moreSiblings ∧
      ∃ account, account.input = Sample.written Sample.pageFragment ∧
        accounts[Sample.fewSiblings.place]? = some account ∧
        IsListed report Sample.fewSiblings.place account ∧
        otherAccounts[Sample.moreSiblings.place]? = some account ∧
        IsListed other Sample.moreSiblings.place account := by
  have hasRoot : Sample.schema.queryRoot? = some Sample.queryType := by decide
  obtain ⟨accounts, reported⟩ := exists_mayReport_of_run (run_eq hasRoot .standard 1
    (Sample.fewSiblings.batch (Sample.written Sample.pageFragment)))
  obtain ⟨otherAccounts, otherReported⟩ := exists_mayReport_of_run (run_eq hasRoot .standard 4
    (Sample.moreSiblings.batch (Sample.written Sample.pageFragment)))
  exact ⟨_, _, accounts, otherAccounts, reported, otherReported, Sample.alike_siblings,
    exists_account_of_alike rfl (Or.inr Sample.alike_siblings) reported otherReported⟩

end Pipeline

end QueryPaging
