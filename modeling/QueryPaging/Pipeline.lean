import QueryPaging.Augmentation
import QueryPaging.Diagnostic
import QueryPaging.Embedding
import QueryPaging.Refetch.Building
import QueryPaging.Workers

/-!
# The pipeline

A run takes a batch of documents through two phases. In the first, each document by itself has its
paginated field found, its arguments promoted, its selections augmented and its refetch spec built.
In the second, a query is generated for each paginated fragment, from the fragments as the first
phase left them.

A document that fails in either phase is reported and stays exactly as it was written. Generated
queries of an earlier run are dropped and generated anew.
-/

namespace QueryPaging

/-- What a run makes of a batch. -/
structure Report where
  /-- The authored documents in their order, then the generated queries in the order of their
  fragments. -/
  documents : List Document
  diagnostics : List Diagnostic

namespace Report

def hasErrors (report : Report) : Bool :=
  report.diagnostics.any (·.severity.isError)

def generated (report : Report) : List Document :=
  report.documents.filter Document.isGenerated

end Report

/-- Why a whole run cannot start. -/
inductive RunFault where
  | missingQueryRoot
deriving DecidableEq

def RunFault.message : RunFault → String
  | .missingQueryRoot => "the schema does not define a query root type"

/-- A document after the first phase. -/
structure Processed where
  /-- The document as it was written. -/
  authored : Document
  document : Document
  /-- How its parent object is found again, if it is a paginated fragment. -/
  identity : Option Identity

namespace Processed

/-- A document that the first phase left alone. -/
def untouched (document : Document) : Processed :=
  ⟨document, document, none⟩

end Processed

namespace Pipeline

/-! ## First phase -/

def atStage {α : Type} (document : Document) (span : Option Span) (stage : Stage) :
    Except Fault α → Except Diagnostic α
  | .ok result => .ok result
  | .error fault => .error (Diagnostic.ofFault document span stage fault)

/-- The document with its field made to page: variables declared, arguments replaced and selections
augmented. -/
def promoteField (schema : Schema) (config : IdentityConfig) (field : PaginatedField)
    (mode : PagingMode) (promotion : Promotion) (document : Document) : Except Fault Document :=
  let edit (target : Field) : Field :=
    augment schema config field.parentType mode { target with arguments := promotion.arguments }
  match (document.declare promotion.variableSet).editField? edit field.indices with
  | some promoted => .ok promoted
  | none => .error (.unsupportedShape field.renderPath .movedField)

/-- How the parent object of a document is found again; operations need none. -/
def identityOf (schema : Schema) (config : IdentityConfig) (document : Document) :
    Except Fault (Option Identity) :=
  match document.fragment? with
  | some fragment => (Identity.resolve schema config fragment.condition).map some
  | none => .ok none

/-- The first phase for one document, or nothing if no field of it is marked. -/
def process (schema : Schema) (config : IdentityConfig) (document : Document) :
    Except Diagnostic (Option Processed) := do
  match ← atStage document none .decode (PaginatedField.find schema document) with
  | none => return none
  | some field =>
      let fail {α : Type} (stage : Stage) (result : Except Fault α) : Except Diagnostic α :=
        atStage document field.span stage result
      let existing ← fail .decode document.variableSet
      let mode ← fail .detectMode (PagingMode.detect schema field)
      let promotion ← fail .promoteArguments (Promotion.promote schema field mode existing)
      let promoted ← fail .promoteArguments
        (promoteField schema config field mode promotion document)
      match promoted.kind?, schema.queryRoot? with
      | some kind, some queryRoot =>
          let identity ← fail .buildSpec (identityOf schema config promoted)
          let refetch := RefetchSpec.build
            { path := field.path
              mode
              kind
              condition := promoted.fragment?.map (·.condition.text)
              queryRoot
              identity
              variableSet := promotion.variableSet
              bindings := promotion.bindings }
          return some ⟨document, { promoted with refetch := some refetch }, identity⟩
      | _, _ => return none

/-- A document after the first phase, whatever came of it. -/
def settled (document : Document) : Except Diagnostic (Option Processed) → Processed
  | .ok (some processed) => processed
  | _ => Processed.untouched document

/-- The diagnostic of a failed outcome. -/
def diagnostic? {α : Type} : Except Diagnostic α → Option Diagnostic
  | .error diagnostic => some diagnostic
  | .ok _ => none

/-! ## Second phase -/

/-- The fragments as the first phase left them. -/
def fragmentIndex (entries : List Processed) : FragmentIndex :=
  FragmentIndex.ofFragments (entries.filterMap (·.document.fragment?))

/-- The paginated fragments. -/
def embeddable (entries : List Processed) : List (Processed × Identity) :=
  entries.filterMap fun entry => entry.identity.map fun identity => (entry, identity)

/-- Generate the query of one paginated fragment. -/
def embedOne (index : FragmentIndex) (registry : NameRegistry) (item : Processed × Identity) :
    Except Diagnostic Document × NameRegistry :=
  let (outcome, registry) := Embedding.embed item.1.document item.2 index registry
  (atStage item.1.document none .embed outcome, registry)

/-- The documents after the second phase. The outcomes are those of the paginated fragments, in
order; a fragment whose query could not be generated goes back to what its author wrote. -/
def finished : List Processed → List (Except Diagnostic Document) → List Document
  | [], _ => []
  | entry :: entries, outcomes =>
      match entry.identity, outcomes with
      | none, _ => entry.document :: finished entries outcomes
      | some _, .error _ :: later => entry.authored :: finished entries later
      | some _, .ok _ :: later => entry.document :: finished entries later
      | some _, [] => entry.document :: finished entries []

/-- The query of a successful outcome. -/
def generated? : Except Diagnostic Document → Option Document
  | .ok document => some document
  | .error _ => none

/-! ## The run -/

def authored (documents : List Document) : List Document :=
  documents.filter (!·.isGenerated)

/-- The report on authored documents whose outcomes of the first phase are given. -/
def reportOn (workers : Nat) (documents : List Document)
    (outcomes : List (Except Diagnostic (Option Processed))) : Report :=
  let entries := documents.zipWith settled outcomes
  let registry := NameRegistry.seeded (documents.map (·.name))
  let (embedded, _) := Workers.mapShared workers (embedOne (fragmentIndex entries)) registry
    (embeddable entries)
  { documents := finished entries embedded ++ embedded.filterMap generated?
    diagnostics := outcomes.filterMap diagnostic? ++ embedded.filterMap diagnostic? }

/-- Run the pass over a batch of documents. -/
def run (schema : Schema) (config : IdentityConfig) (workers : Nat) (documents : List Document) :
    Except RunFault Report :=
  match schema.queryRoot? with
  | none => .error .missingQueryRoot
  | some _ =>
      let authored := authored documents
      let outcomes := Workers.map workers (process schema config) authored
      .ok (reportOn workers authored outcomes)

end Pipeline

end QueryPaging
