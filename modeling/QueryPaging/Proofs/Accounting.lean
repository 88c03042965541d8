import Mathlib.Data.List.Perm.Basic
import QueryPaging.Proofs.Batches

/-!
# Accounting for a report

A report accounts for each authored document of its batch: the document passes as it is because no
field of it is marked, or it fails with exactly one diagnostic and stays as it was written, or it
is made to page. Nothing is reported besides.

- `Report.IsCoveredBy`: how accounts make up a report.
- `Pipeline.ComesFrom.isCoveredBy`: a report is covered by the accounts of what it comes from.
-/

namespace QueryPaging

/-- What a run made of one authored document. -/
structure Account where
  input : Document
  output : Document
  diagnostics : List Diagnostic
  /-- The queries that were generated for the document. -/
  queries : List Document

namespace Account

/-- What can become of a document. -/
inductive Case where
  | untouched
  | failed
  | paged
deriving DecidableEq

/-- No field is marked, and nothing happens. -/
structure IsUntouched (account : Account) : Prop where
  unmarked : ¬ account.input.IsMarked
  output : account.output = account.input
  diagnostics : account.diagnostics = []
  queries : account.queries = []

/-- A field is marked, and there is one diagnostic and nothing else. -/
structure IsFailed (account : Account) : Prop where
  marked : account.input.IsMarked
  output : account.output = account.input
  diagnostics : ∃ diagnostic, account.diagnostics = [diagnostic]
  queries : account.queries = []

/-- A field is marked and was made to page. The refetch spec is the one that was built on the way,
and just a fragment has a query, with the same spec. -/
structure IsPaged (schema : Schema) (config : IdentityConfig) (account : Account) : Prop where
  marked : account.input.IsMarked
  output : ∃ passage : Passage schema config account.input,
    account.output = passage.outcome ∧
      account.output.refetch = some (RefetchSpec.build passage.inputs)
  diagnostics : account.diagnostics = []
  ofFragment : ∀ fragment, account.input.fragment? = some fragment →
    ∃ query wrapper hash, account.queries = [query] ∧
      query.generated = some ⟨fragment.name, wrapper, hash⟩ ∧
      query.refetch = account.output.refetch
  ofOperation : account.input.fragment? = none → account.queries = []

/-- Whether an account is of a case. -/
def Meets (schema : Schema) (config : IdentityConfig) (account : Account) : Case → Prop
  | .untouched => account.IsUntouched
  | .failed => account.IsFailed
  | .paged => account.IsPaged schema config

variable {schema : Schema} {config : IdentityConfig} {account : Account}

/-- No account is of two cases. -/
theorem meets_unique {left right : Case}
    (meetsLeft : account.Meets schema config left)
    (meetsRight : account.Meets schema config right) :
    left = right := by
  have apart : account.IsFailed → account.IsPaged schema config → False := by
    intro failed paged
    obtain ⟨diagnostic, one⟩ := failed.diagnostics
    rw [paged.diagnostics] at one
    cases one
  cases left <;> cases right
  case untouched.untouched => rfl
  case untouched.failed => exact absurd meetsRight.marked meetsLeft.unmarked
  case untouched.paged => exact absurd meetsRight.marked meetsLeft.unmarked
  case failed.untouched => exact absurd meetsLeft.marked meetsRight.unmarked
  case failed.failed => rfl
  case failed.paged => exact (apart meetsLeft meetsRight).elim
  case paged.untouched => exact absurd meetsLeft.marked meetsRight.unmarked
  case paged.failed => exact (apart meetsRight meetsLeft).elim
  case paged.paged => rfl

end Account

namespace Pipeline

variable {schema : Schema} {config : IdentityConfig}

/-- The account of a document after the second phase. -/
def accountOf (schema : Schema) (config : IdentityConfig) (embedded : Embedded) : Account where
  input := embedded.1.authored
  output := concluded embedded
  diagnostics :=
    (diagnostic? (process schema config embedded.1.authored)).toList
      ++ (embedded.2.bind diagnostic?).toList
  queries := (embedded.2.bind generated?).toList

/-- A paginated fragment has its query, or the query could not be generated. -/
theorem exists_case_of_embedOne {document : Document} {identity : Identity}
    {index : FragmentIndex} {registry : NameRegistry}
    (marked : document.IsMarked)
    (passage : Passage schema config document)
    (known : passage.identity = some identity)
    (isProcess : process schema config document =
      .ok (some ⟨document, passage.outcome, passage.identity⟩)) :
    ∃ which, (accountOf schema config
      (⟨document, passage.outcome, passage.identity⟩,
        some (embedOne index registry
          (⟨document, passage.outcome, passage.identity⟩, identity)).1)).Meets
      schema config which := by
  cases embedded : Embedding.embed passage.outcome identity index registry with
  | mk made later =>
      cases made with
      | error fault =>
          refine ⟨.failed, marked, ?_,
            ⟨Diagnostic.ofFault passage.outcome none .embed fault, ?_⟩, ?_⟩
          · simp [accountOf, embedOne, embedded, atStage, concluded]
          · simp [accountOf, embedOne, embedded, atStage, isProcess, diagnostic?]
          · simp [accountOf, embedOne, embedded, atStage, generated?]
      | ok query =>
          obtain ⟨generation, rfl⟩ := Embedding.exists_generation_of_embed embedded
          have left : concluded (⟨document, passage.outcome, passage.identity⟩,
              some (embedOne index registry
                (⟨document, passage.outcome, passage.identity⟩, identity)).1) =
                passage.outcome := by
            simp [concluded, embedOne, embedded, atStage]
          refine ⟨.paged, marked, ⟨passage, left, ?_⟩, ?_, ?_, ?_⟩
          · exact (congrArg Document.refetch left).trans rfl
          · simp [accountOf, embedOne, embedded, atStage, isProcess, diagnostic?]
          · intro fragment isFragment
            have sameName : generation.fragment.name = fragment.name := by
              have same := passage.fragment?_outcome
              rw [generation.isFragment] at same
              simp only [accountOf] at isFragment
              rw [isFragment] at same
              simp only [Option.map_some, Option.some.injEq, Prod.mk.injEq] at same
              exact same.1
            refine ⟨generation.outcome, generation.wrapper, generation.hash, ?_, ?_, ?_⟩
            · simp [accountOf, embedOne, embedded, atStage, generated?]
            · rw [← sameName]
              rfl
            · exact (congrArg Document.refetch left).symm
          · intro isOperation
            simp only [accountOf] at isOperation
            rw [← passage.identity_eq_none_iff, known] at isOperation
            cases isOperation

/-- Each account is of some case. -/
theorem exists_case {queryRoot : Name}
    (hasRoot : schema.queryRoot? = some queryRoot)
    {index : FragmentIndex} {embedded : Embedded}
    (stands : Stands schema config index embedded) :
    ∃ which, (accountOf schema config embedded).Meets schema config which := by
  obtain ⟨processed, embedding⟩ := embedded
  obtain ⟨entry, outcome⟩ := stands
  have phase := firstPhase hasRoot config processed.authored
  generalize processed.authored = document at entry phase
  generalize isProcess : process schema config document = result at phase
  have same : processed = settled document result := by
    rw [← isProcess]
    exact entry
  subst same
  cases phase with
  | untouched unmarked =>
      obtain ⟨_, rfl⟩ | ⟨identity, registry, none, _⟩ := outcome
      · refine ⟨.untouched, unmarked, rfl, ?_, rfl⟩
        simp [accountOf, settled, Processed.untouched, isProcess, diagnostic?]
      · cases none
  | failed marked span stage fault early =>
      obtain ⟨_, rfl⟩ | ⟨identity, registry, none, _⟩ := outcome
      · refine ⟨.failed, marked, rfl,
          ⟨Diagnostic.ofFault document span stage fault, ?_⟩, rfl⟩
        simp [accountOf, settled, Processed.untouched, isProcess, diagnostic?]
      · cases none
  | paged marked passage =>
      obtain ⟨none, rfl⟩ | ⟨identity, registry, known, made⟩ := outcome
      · have isOperation := passage.identity_eq_none_iff.mp none
        refine ⟨.paged, marked, ⟨passage, rfl, rfl⟩, ?_, ?_, fun _ => rfl⟩
        · simp [accountOf, settled, isProcess, diagnostic?]
        · intro fragment isFragment
          have contradiction := isOperation.symm.trans isFragment
          cases contradiction
      · change embedding = some (embedOne index registry
          (⟨document, passage.outcome, passage.identity⟩, identity)).1 at made
        subst made
        exact exists_case_of_embedOne marked passage known isProcess

section Diagnostics

variable {diagnostic : Diagnostic}

/-- A diagnostic of the first phase is not one of embedding. -/
theorem early_of_process {document : Document}
    (reported : diagnostic? (process schema config document) = some diagnostic) :
    diagnostic.stage ≠ .embed ∧
      diagnostic.document = document.name ∧ diagnostic.source = document.source := by
  cases result : process schema config document with
  | ok processed? => simp [result, diagnostic?] at reported
  | error failure =>
      obtain ⟨span, stage, fault, early, rfl⟩ := exists_fault_of_process result
      rw [result, diagnostic?, Option.some.injEq] at reported
      subst reported
      exact ⟨early, rfl, rfl⟩

variable {index : FragmentIndex} {embedded : Embedded}

/-- A diagnostic of the second phase is one of embedding. -/
theorem late_of_stands
    (stands : Stands schema config index embedded)
    (reported : embedded.2.bind diagnostic? = some diagnostic) :
    diagnostic.stage = .embed ∧ diagnostic.document = embedded.1.authored.name ∧
      diagnostic.source = embedded.1.authored.source := by
  obtain ⟨_, sameName, sameSource, _⟩ := entryOf_keeps schema config embedded.1.authored
  rw [← stands.entry] at sameName sameSource
  rcases stands.outcome with ⟨_, none⟩ | ⟨identity, registry, _, made⟩
  · rw [none] at reported
    cases reported
  · rw [made, Option.bind_some, embedOne] at reported
    cases outcome : (Embedding.embed embedded.1.document identity index registry).1 with
    | ok query => simp [outcome, atStage, diagnostic?] at reported
    | error fault =>
        simp only [outcome, atStage, diagnostic?, Option.some.injEq] at reported
        subst reported
        exact ⟨rfl, sameName, sameSource⟩

theorem mem_diagnostics
    (stands : Stands schema config index embedded)
    (member : diagnostic ∈ (accountOf schema config embedded).diagnostics) :
    diagnostic.document = embedded.1.authored.name ∧
      diagnostic.source = embedded.1.authored.source := by
  rcases List.mem_append.mp member with first | second
  · exact (early_of_process (Option.mem_toList.mp first)).2
  · exact (late_of_stands stands (Option.mem_toList.mp second)).2

/-- The diagnostics of an account, told apart by the phase they come from. -/
theorem filter_diagnostics (stands : Stands schema config index embedded) :
    (accountOf schema config embedded).diagnostics.filter (·.stage != .embed) =
        (diagnostic? (process schema config embedded.1.authored)).toList ∧
      (accountOf schema config embedded).diagnostics.filter (·.stage == .embed) =
        (embedded.2.bind diagnostic?).toList := by
  have early : ∀ diagnostic ∈ (diagnostic? (process schema config embedded.1.authored)).toList,
      diagnostic.stage ≠ .embed := fun diagnostic member =>
    (early_of_process (Option.mem_toList.mp member)).1
  have late : ∀ diagnostic ∈ (embedded.2.bind diagnostic?).toList,
      diagnostic.stage = .embed := fun diagnostic member =>
    (late_of_stands stands (Option.mem_toList.mp member)).1
  rw [accountOf, List.filter_append, List.filter_append]
  constructor
  · rw [List.filter_eq_self.mpr fun diagnostic member => bne_iff_ne.mpr (early _ member),
      List.filter_eq_nil_iff.mpr fun diagnostic member => by simp [late _ member],
      List.append_nil]
  · rw [List.filter_eq_nil_iff.mpr fun diagnostic member => by simp [early _ member],
      List.filter_eq_self.mpr fun diagnostic member => beq_iff_eq.mpr (late _ member),
      List.nil_append]

end Diagnostics

end Pipeline

/-! ## Reports -/

/-- How the accounts of all authored documents make up a report. -/
structure Report.IsCoveredBy (schema : Schema) (config : IdentityConfig)
    (batch : List Document) (report : Report) (accounts : List Account) : Prop where
  /-- There is one account for each authored document, in order. -/
  inputs : accounts.map (·.input) = Pipeline.authored batch
  /-- The outputs come first, and then the queries in the order of their fragments. -/
  documents : report.documents = accounts.map (·.output) ++ accounts.flatMap (·.queries)
  /-- No other document of the report is generated. -/
  generated : report.generated = accounts.flatMap (·.queries)
  /-- The diagnostics of the first phase come before those of embedding. There are no others. -/
  diagnostics : report.diagnostics =
    (accounts.flatMap (·.diagnostics)).filter (·.stage != .embed)
      ++ (accounts.flatMap (·.diagnostics)).filter (·.stage == .embed)
  named : ∀ account ∈ accounts, ∀ diagnostic ∈ account.diagnostics,
    diagnostic.document = account.input.name ∧ diagnostic.source = account.input.source
  /-- Each account is of exactly one case. -/
  cases : ∀ account ∈ accounts, ∃ which, account.Meets schema config which ∧
    ∀ other, account.Meets schema config other → other = which

namespace Pipeline

/-- Outcomes of the second phase, document by document. -/
theorem filterMap_outcomes {Value : Type} (embedded : List Embedded)
    (read : Except Diagnostic Document → Option Value) :
    (embedded.filterMap (·.2)).filterMap read =
      embedded.flatMap fun each => (each.2.bind read).toList := by
  rw [List.filterMap_filterMap, List.filterMap_eq_flatMap_toList]

/-- How a report comes from the authored documents of a batch as they stand after the second
phase. -/
structure ComesFrom (schema : Schema) (config : IdentityConfig) (batch : List Document)
    (report : Report) (embedded : List Embedded) : Prop where
  inputs : embedded.map (·.1.authored) = authored batch
  stands : ∃ index, ∀ each ∈ embedded, Stands schema config index each
  documents : report.documents =
    embedded.map concluded ++ (embedded.filterMap (·.2)).filterMap generated?
  diagnostics : report.diagnostics =
    (authored batch).filterMap (fun document => diagnostic? (process schema config document))
      ++ (embedded.filterMap (·.2)).filterMap diagnostic?

namespace ComesFrom

variable {schema : Schema} {config : IdentityConfig} {batch : List Document} {report : Report}
  {embedded : List Embedded}
  (comes : ComesFrom schema config batch report embedded)

include comes

theorem isAuthored {each : Embedded}
    (member : each ∈ embedded) :
    each.1.authored ∈ authored batch := by
  rw [← comes.inputs]
  exact List.mem_map_of_mem member

theorem map_input :
    (embedded.map (accountOf schema config)).map (·.input) = authored batch := by
  rw [List.map_map]
  exact comes.inputs

theorem documents_eq :
    report.documents = (embedded.map (accountOf schema config)).map (·.output) ++
      (embedded.map (accountOf schema config)).flatMap (·.queries) := by
  rw [comes.documents, filterMap_outcomes, List.map_map, List.flatMap_map]
  rfl

/-- The diagnostics of the first phase stand in the order of the documents, and so do those of
embedding behind them. -/
theorem diagnostics_eq :
    report.diagnostics =
      (embedded.flatMap fun each => (diagnostic? (process schema config each.1.authored)).toList) ++
        embedded.flatMap fun each => (each.2.bind diagnostic?).toList := by
  rw [comes.diagnostics, filterMap_outcomes, ← comes.inputs, List.filterMap_map,
    List.filterMap_eq_flatMap_toList]
  rfl

/-- The diagnostics of a report are those of its accounts, put in another order. -/
theorem perm_diagnostics :
    report.diagnostics.Perm
      ((embedded.map (accountOf schema config)).flatMap (·.diagnostics)) := by
  rw [comes.diagnostics_eq, List.flatMap_map]
  exact List.flatMap_append_perm _ _ _

theorem generated_eq :
    report.generated = (embedded.map (accountOf schema config)).flatMap (·.queries) := by
  obtain ⟨index, stands⟩ := comes.stands
  have outputs : ((embedded.map (accountOf schema config)).map (·.output)).filter
      Document.isGenerated = [] := by
    refine List.filter_eq_nil_iff.mpr fun output member => ?_
    rw [List.map_map] at member
    obtain ⟨each, among, rfl⟩ := List.mem_map.mp member
    have unmade := isGenerated_of_mem_authored (comes.isAuthored among)
    change ¬ (concluded each).isGenerated = true
    rw [(concluded_keeps (stands each among)).2, unmade]
    decide
  have queries : ((embedded.map (accountOf schema config)).flatMap (·.queries)).filter
      Document.isGenerated = (embedded.map (accountOf schema config)).flatMap (·.queries) := by
    refine List.filter_eq_self.mpr fun query member => ?_
    rw [List.flatMap_map] at member
    obtain ⟨each, among, isQuery⟩ := List.mem_flatMap.mp member
    exact isGenerated_of_outcome (stands each among) (Option.mem_toList.mp isQuery)
  rw [Report.generated, comes.documents_eq, List.filter_append, outputs, queries, List.nil_append]

/-- A report accounts for all documents that it comes from. -/
theorem isCoveredBy {queryRoot : Name}
    (hasRoot : schema.queryRoot? = some queryRoot) :
    report.IsCoveredBy schema config batch (embedded.map (accountOf schema config)) := by
  obtain ⟨index, stands⟩ := comes.stands
  constructor
  case inputs => exact comes.map_input
  case documents => exact comes.documents_eq
  case generated => exact comes.generated_eq
  case diagnostics =>
    rw [List.flatMap_map, List.filter_flatMap, List.filter_flatMap, comes.diagnostics_eq]
    congr 1
    · exact List.flatMap_congr fun each member => (filter_diagnostics (stands each member)).1.symm
    · exact List.flatMap_congr fun each member => (filter_diagnostics (stands each member)).2.symm
  case named =>
    intro account member diagnostic reported
    obtain ⟨each, among, rfl⟩ := List.mem_map.mp member
    exact mem_diagnostics (stands each among) reported
  case cases =>
    intro account member
    obtain ⟨each, among, rfl⟩ := List.mem_map.mp member
    obtain ⟨which, meets⟩ := exists_case hasRoot (stands each among)
    exact ⟨which, meets, fun other meetsOther => Account.meets_unique meetsOther meets⟩

end ComesFrom

end Pipeline

end QueryPaging
