import QueryPaging.Pipeline
import QueryPaging.Proofs.Augmenting
import QueryPaging.Proofs.Finding
import QueryPaging.Proofs.Promoting

/-!
# The way through the first phase

A document that the first phase makes to page passes all of its stages; `Passage` holds what each
stage found.

- `process_eq_ok_some_iff`: a document is processed just along a passage.
- `process_eq_ok_none_iff`: a document is left alone just where no field of it is marked.
- `Passage.process_again`: what the first phase made of a document goes through it unchanged.
-/

namespace QueryPaging

/-- A document's way through the first phase, with what was found at each stage. -/
structure Passage (schema : Schema) (config : IdentityConfig) (document : Document) where
  field : PaginatedField
  existing : VariableSet
  mode : PagingMode
  promotion : Promotion
  promoted : Document
  kind : DocumentKind
  queryRoot : Name
  identity : Option Identity
  isFound : PaginatedField.find schema document = .ok (some field)
  isRead : document.variableSet = .ok existing
  isDetected : PagingMode.detect schema field = .ok mode
  isPromoted : Promotion.promote schema field mode existing = .ok promotion
  isRewritten :
    Pipeline.promoteField schema config field mode promotion document = .ok promoted
  hasKind : promoted.kind? = some kind
  hasRoot : schema.queryRoot? = some queryRoot
  isIdentified : Pipeline.identityOf schema config promoted = .ok identity

namespace Passage

variable {schema : Schema} {config : IdentityConfig} {document : Document}

/-- What the refetch spec is built from. -/
def inputs (passage : Passage schema config document) : RefetchInputs where
  path := passage.field.path
  mode := passage.mode
  kind := passage.kind
  condition := passage.promoted.fragment?.map (·.condition.text)
  queryRoot := passage.queryRoot
  identity := passage.identity
  variableSet := passage.promotion.variableSet
  bindings := passage.promotion.bindings

def outcome (passage : Passage schema config document) : Document :=
  { passage.promoted with refetch := some (RefetchSpec.build passage.inputs) }

end Passage

namespace Pipeline

section Stages

variable {Result Value : Type} {document : Document} {span : Option Span} {stage : Stage}

theorem bind_eq_ok_iff {Error : Type} {result : Except Error Result}
    {next : Result → Except Error Value} {value : Value} :
    result >>= next = .ok value ↔ ∃ inner, result = .ok inner ∧ next inner = .ok value := by
  cases result <;> simp [bind, Except.bind]

theorem bind_eq_error_iff {Error : Type} {result : Except Error Result}
    {next : Result → Except Error Value} {error : Error} :
    result >>= next = .error error ↔
      result = .error error ∨ ∃ inner, result = .ok inner ∧ next inner = .error error := by
  cases result <;> simp [bind, Except.bind]

/-- Where mapping over items fails, it fails at one of them. -/
theorem exists_failed_of_mapM {Item Error : Type} {step : Item → Except Error Result}
    {items : List Item} {error : Error}
    (failed : items.mapM step = .error error) :
    ∃ item ∈ items, step item = .error error := by
  induction items with
  | nil => cases failed
  | cons first others inductionHypothesis =>
      rw [List.mapM_cons] at failed
      rcases bind_eq_error_iff.mp failed with here | ⟨result, _, behind⟩
      · exact ⟨first, List.mem_cons_self, here⟩
      · rcases bind_eq_error_iff.mp behind with later | ⟨results, _, whole⟩
        · obtain ⟨item, member, there⟩ := inductionHypothesis later
          exact ⟨item, List.mem_cons_of_mem first member, there⟩
        · cases whole

/-- What mapping over items comes to, it comes to at one of them each. -/
theorem exists_of_mem_mapM {Item Error : Type} {step : Item → Except Error Result}
    {items : List Item} {results : List Result} {result : Result}
    (done : items.mapM step = .ok results)
    (member : result ∈ results) :
    ∃ item ∈ items, step item = .ok result := by
  induction items generalizing results with
  | nil =>
      cases done
      cases member
  | cons first others inductionHypothesis =>
      rw [List.mapM_cons] at done
      obtain ⟨head, here, behind⟩ := bind_eq_ok_iff.mp done
      obtain ⟨tail, later, whole⟩ := bind_eq_ok_iff.mp behind
      cases whole
      rcases List.mem_cons.mp member with rfl | among
      · exact ⟨first, List.mem_cons_self, here⟩
      · obtain ⟨item, isItem, there⟩ := inductionHypothesis later among
        exact ⟨item, List.mem_cons_of_mem first isItem, there⟩

/-- Where each step keeps what is read of its item, mapping keeps it too. -/
theorem map_eq_of_mapM {Item Label Error : Type} {step : Item → Except Error Result}
    {items : List Item} {results : List Result} {wanted : Item → Label} {read : Result → Label}
    (kept : ∀ item result, step item = .ok result → read result = wanted item)
    (done : items.mapM step = .ok results) :
    results.map read = items.map wanted := by
  induction items generalizing results with
  | nil =>
      cases done
      rfl
  | cons first others inductionHypothesis =>
      rw [List.mapM_cons] at done
      obtain ⟨head, here, behind⟩ := bind_eq_ok_iff.mp done
      obtain ⟨tail, later, whole⟩ := bind_eq_ok_iff.mp behind
      cases whole
      rw [List.map_cons, List.map_cons, kept first head here, inductionHypothesis later]

theorem exists_failed_of_foldlM {Item State Error : Type} {step : State → Item → Except Error State}
    {items : List Item} {state : State} {error : Error}
    (failed : items.foldlM step state = .error error) :
    ∃ item ∈ items, ∃ state, step state item = .error error := by
  induction items generalizing state with
  | nil => cases failed
  | cons first others inductionHypothesis =>
      rw [List.foldlM_cons] at failed
      rcases bind_eq_error_iff.mp failed with here | ⟨next, _, behind⟩
      · exact ⟨first, List.mem_cons_self, state, here⟩
      · obtain ⟨item, member, there⟩ := inductionHypothesis behind
        exact ⟨item, List.mem_cons_of_mem first member, there⟩

theorem atStage_eq_ok_iff {result : Except Fault Result} {value : Result} :
    atStage document span stage result = .ok value ↔ result = .ok value := by
  cases result <;> simp [atStage]

theorem atStage_eq_error_iff {result : Except Fault Result} {diagnostic : Diagnostic} :
    atStage document span stage result = .error diagnostic ↔
      ∃ fault, result = .error fault ∧
        diagnostic = Diagnostic.ofFault document span stage fault := by
  cases result <;> simp [atStage, eq_comm]

end Stages

variable {schema : Schema} {config : IdentityConfig} {document : Document}

theorem process_eq_ok_some_iff {processed : Processed} :
    process schema config document = .ok (some processed) ↔
      ∃ passage : Passage schema config document,
        processed = ⟨document, passage.outcome, passage.identity⟩ := by
  constructor
  · intro result
    rw [process, bind_eq_ok_iff] at result
    obtain ⟨found, isFound, result⟩ := result
    cases found with
    | none => cases result
    | some field =>
        simp only [bind_eq_ok_iff, atStage_eq_ok_iff] at result
        obtain ⟨existing, isRead, mode, isDetected, promotion, isPromoted, promoted, isRewritten,
          result⟩ := result
        split at result
        · next kind queryRoot hasKind hasRoot =>
            simp only [bind_eq_ok_iff, atStage_eq_ok_iff] at result
            obtain ⟨identity, isIdentified, result⟩ := result
            cases result
            exact ⟨⟨field, existing, mode, promotion, promoted, kind, queryRoot, identity,
              atStage_eq_ok_iff.mp isFound, isRead, isDetected, isPromoted, isRewritten, hasKind,
              hasRoot, isIdentified⟩, rfl⟩
        · cases result
  · rintro ⟨passage, rfl⟩
    obtain ⟨field, existing, mode, promotion, promoted, kind, queryRoot, identity, isFound,
      isRead, isDetected, isPromoted, isRewritten, hasKind, hasRoot, isIdentified⟩ := passage
    simp [process, atStage, isFound, isRead, isDetected, isPromoted, isRewritten, hasKind,
      hasRoot, isIdentified, bind, Except.bind, pure, Except.pure, Passage.outcome,
      Passage.inputs]

/-! ## What is rewritten -/

def pagingEdit (schema : Schema) (config : IdentityConfig) (field : PaginatedField)
    (mode : PagingMode) (arguments : List Argument) (target : Field) : Field :=
  augment schema config field.parentType mode { target with arguments }

theorem pagingEdit_eq (schema : Schema) (config : IdentityConfig) (field : PaginatedField)
    (mode : PagingMode) (arguments : List Argument) (target : Field) :
    pagingEdit schema config field mode arguments target =
      { target with
        arguments
        selections :=
          augmentSelections schema config field.parentType mode target.name
            target.selections } := by
  rw [pagingEdit, augment_eq_within]
  rfl

@[simp]
theorem pagingEdit_pagingEdit (schema : Schema) (config : IdentityConfig)
    (field : PaginatedField) (mode : PagingMode) (arguments : List Argument) (target : Field) :
    pagingEdit schema config field mode arguments
        (pagingEdit schema config field mode arguments target) =
      pagingEdit schema config field mode arguments target := by
  rw [pagingEdit_eq, pagingEdit_eq]
  simp

theorem keepsMark_pagingEdit (schema : Schema) (config : IdentityConfig)
    (field : PaginatedField) (mode : PagingMode) (arguments : List Argument) {target : Field}
    (unmarked : MarkedField.Unmarked target.selections) :
    MarkedField.KeepsMark (pagingEdit schema config field mode arguments) target where
  aliasName := by rw [pagingEdit_eq]
  name := by rw [pagingEdit_eq]
  directives := by rw [pagingEdit_eq]
  unmarked := by
    rw [pagingEdit_eq]
    exact unmarked_augmentSelections schema config _ _ unmarked

/-- What a definition becomes: its variables declared and its field edited. -/
def rewritten (set : VariableSet) (selections : List Selection) (definition : Definition) :
    Definition :=
  (Document.declareIn set definition).withSelections selections

section Rewritten

variable (set : VariableSet) (selections : List Selection) (definition : Definition)

@[simp]
theorem selections_rewritten :
    (rewritten set selections definition).selections = selections :=
  Definition.selections_withSelections _ selections

@[simp]
theorem rootType_rewritten (schema : Schema) :
    MarkedField.rootType schema (rewritten set selections definition) =
      MarkedField.rootType schema definition := by
  cases definition <;> rfl

@[simp]
theorem canPage_rewritten :
    (rewritten set selections definition).canPage = definition.canPage := by
  cases definition <;> rfl

/-- Rewriting once more changes nothing. -/
theorem rewritten_rewritten :
    rewritten set.asDeclared selections (rewritten set selections definition) =
      rewritten set selections definition := by
  rw [rewritten, rewritten, Document.declareIn_declareIn,
    Definition.withSelections_withSelections]

end Rewritten

theorem promoteField_eq_ok_iff {document : Document} {field : PaginatedField} {mode : PagingMode}
    {promotion : Promotion} {promoted : Document} {definition : Definition}
    {others : List Definition}
    (parts : document.definitions = definition :: others) :
    promoteField schema config field mode promotion document = .ok promoted ↔
      ∃ selections,
        editFieldAt? (pagingEdit schema config field mode promotion.arguments)
          definition.selections field.indices = some selections ∧
        promoted = { document with
          definitions := rewritten promotion.variableSet selections definition :: others } := by
  have declared : document.declare promotion.variableSet =
      { document with
        definitions := Document.declareIn promotion.variableSet definition :: others } := by
    rw [Document.declare, Document.mapPrimary, parts]
  have edited : (document.declare promotion.variableSet).editField?
        (pagingEdit schema config field mode promotion.arguments) field.indices =
      (editFieldAt? (pagingEdit schema config field mode promotion.arguments)
        definition.selections field.indices).map fun selections =>
          { document with
            definitions := rewritten promotion.variableSet selections definition :: others } := by
    rw [declared]
    simp only [Document.editField?, Document.selections?, Document.primary?, List.head?_cons,
      Option.map_some, Document.selections_declareIn, bind, Option.bind, pure]
    cases editFieldAt? (pagingEdit schema config field mode promotion.arguments)
      definition.selections field.indices <;> rfl
  have sameEdit : (fun target : Field =>
      augment schema config field.parentType mode
        { target with arguments := promotion.arguments }) =
      pagingEdit schema config field mode promotion.arguments := rfl
  simp only [promoteField, sameEdit, edited]
  cases editFieldAt? (pagingEdit schema config field mode promotion.arguments)
    definition.selections field.indices with
  | none => simp
  | some selections => simp [eq_comm]

/-- A document is left alone just where no field of it is marked. -/
theorem process_eq_ok_none_iff {queryRoot : Name}
    (hasRoot : schema.queryRoot? = some queryRoot) :
    process schema config document = .ok none ↔ ¬ document.IsMarked := by
  rw [← @PaginatedField.find_eq_ok_none_iff schema]
  constructor
  · intro result
    rw [process, bind_eq_ok_iff] at result
    obtain ⟨found, isFound, result⟩ := result
    cases found with
    | none => exact atStage_eq_ok_iff.mp isFound
    | some field =>
        simp only [bind_eq_ok_iff, atStage_eq_ok_iff, hasRoot] at isFound result
        obtain ⟨existing, _, mode, _, promotion, _, promoted, isRewritten, result⟩ := result
        obtain ⟨definition, _, primary, _⟩ := PaginatedField.find_eq_ok_some_iff.mp isFound
        obtain ⟨others, parts⟩ := List.head?_eq_some_iff.mp primary
        obtain ⟨selections, _, rfl⟩ := (promoteField_eq_ok_iff parts).mp isRewritten
        simp only [Document.kind?, Document.primary?, List.head?_cons, Option.map_some,
          bind_eq_ok_iff] at result
        obtain ⟨identity, _, result⟩ := result
        cases result
  · intro unmarked
    rw [process, unmarked]
    rfl

/-- What may fail in the first phase, and at which stage. -/
inductive FailsAt (schema : Schema) (config : IdentityConfig) (document : Document) :
    Stage → Fault → Prop where
  | finding {fault : Fault}
      (failed : PaginatedField.find schema document = .error fault) :
      FailsAt schema config document .decode fault
  | reading {fault : Fault}
      (failed : document.variableSet = .error fault) :
      FailsAt schema config document .decode fault
  | detecting {field : PaginatedField} {fault : Fault}
      (failed : PagingMode.detect schema field = .error fault) :
      FailsAt schema config document .detectMode fault
  | promoting {field : PaginatedField} {mode : PagingMode} {existing : VariableSet} {fault : Fault}
      (failed : Promotion.promote schema field mode existing = .error fault) :
      FailsAt schema config document .promoteArguments fault
  | editing {field : PaginatedField} {mode : PagingMode} {promotion : Promotion} {fault : Fault}
      (isFound : PaginatedField.find schema document = .ok (some field))
      (failed : promoteField schema config field mode promotion document = .error fault) :
      FailsAt schema config document .promoteArguments fault
  | identifying {promoted : Document} {fault : Fault}
      (failed : identityOf schema config promoted = .error fault) :
      FailsAt schema config document .buildSpec fault

theorem failsAt_of_process {diagnostic : Diagnostic}
    (result : process schema config document = .error diagnostic) :
    ∃ span stage fault, FailsAt schema config document stage fault ∧
      diagnostic = Diagnostic.ofFault document span stage fault := by
  rw [process, bind_eq_error_iff] at result
  rcases result with failed | ⟨found, isFound, result⟩
  · obtain ⟨fault, failed, same⟩ := atStage_eq_error_iff.mp failed
    exact ⟨none, _, fault, .finding failed, same⟩
  cases found with
  | none => cases result
  | some field =>
      simp only [bind_eq_error_iff, atStage_eq_error_iff, atStage_eq_ok_iff] at isFound result
      rcases result with ⟨fault, failed, same⟩ | ⟨existing, _, result⟩
      · exact ⟨field.span, _, fault, .reading failed, same⟩
      rcases result with ⟨fault, failed, same⟩ | ⟨mode, _, result⟩
      · exact ⟨field.span, _, fault, .detecting failed, same⟩
      rcases result with ⟨fault, failed, same⟩ | ⟨promotion, _, result⟩
      · exact ⟨field.span, _, fault, .promoting failed, same⟩
      rcases result with ⟨fault, failed, same⟩ | ⟨promoted, _, result⟩
      · exact ⟨field.span, _, fault, .editing isFound failed, same⟩
      split at result
      · simp only [bind_eq_error_iff, atStage_eq_error_iff] at result
        rcases result with ⟨fault, failed, same⟩ | ⟨identity, _, result⟩
        · exact ⟨field.span, _, fault, .identifying failed, same⟩
        · cases result
      · cases result

/-- A failure of the first phase is a diagnostic of the document, and not one of embedding. -/
theorem exists_fault_of_process {diagnostic : Diagnostic}
    (result : process schema config document = .error diagnostic) :
    ∃ span stage fault, stage ≠ .embed ∧
      diagnostic = Diagnostic.ofFault document span stage fault := by
  obtain ⟨span, stage, fault, fails, same⟩ := failsAt_of_process result
  refine ⟨span, stage, fault, ?_, same⟩
  cases fails <;> exact nofun

end Pipeline

namespace Passage

variable {schema : Schema} {config : IdentityConfig} {document : Document}

/-- What a passage rewrites: the primary definition, at its only marked field. -/
structure Rewriting (passage : Passage schema config document) where
  definition : Definition
  others : List Definition
  found : MarkedField
  selections : List Selection
  parts : document.definitions = definition :: others
  only : MarkedField.inDefinition schema definition = [found]
  able : definition.canPage = true
  read : PaginatedField.ofMarked found = .ok passage.field
  declared : Document.variableSetOf definition = .ok passage.existing
  edited : editFieldAt? (Pipeline.pagingEdit schema config passage.field passage.mode
    passage.promotion.arguments) definition.selections found.indices = some selections
  whole : passage.promoted = { document with
    definitions :=
      Pipeline.rewritten passage.promotion.variableSet selections definition :: others }

theorem field_indices {found : MarkedField} {field : PaginatedField}
    (read : PaginatedField.ofMarked found = .ok field) :
    field.indices = found.indices := by
  obtain ⟨_, _, _, _, same⟩ := PaginatedField.ofMarked_eq_ok_iff.mp read
  rw [same]

theorem exists_rewriting (passage : Passage schema config document) :
    Nonempty passage.Rewriting := by
  obtain ⟨definition, found, primary, only, able, read⟩ :=
    PaginatedField.find_eq_ok_some_iff.mp passage.isFound
  obtain ⟨others, parts⟩ := List.head?_eq_some_iff.mp primary
  obtain ⟨selections, edited, whole⟩ :=
    (Pipeline.promoteField_eq_ok_iff parts).mp passage.isRewritten
  have declared := passage.isRead
  rw [Document.variableSet_eq primary] at declared
  rw [field_indices read] at edited
  exact ⟨⟨definition, others, found, selections, parts, only, able, read, declared, edited,
    whole⟩⟩

/-- The bindings the document had come first, and are followed by those of the requests. -/
theorem exists_added (passage : Passage schema config document) :
    ∃ added, passage.promotion.variableSet.bindings = passage.existing.bindings ++ added := by
  obtain ⟨merged, _, _⟩ := Promotion.promote_eq_ok_iff.mp passage.isPromoted
  obtain ⟨added, extended, _⟩ := (VariableSet.merge_extends merged).bindings
  exact ⟨added, extended⟩

namespace Rewriting

variable {passage : Passage schema config document} (rewriting : passage.Rewriting)

/-- The definition after the rewriting. -/
def changed : Definition :=
  Pipeline.rewritten passage.promotion.variableSet rewriting.selections rewriting.definition

def edit (_ : passage.Rewriting) : Field → Field :=
  Pipeline.pagingEdit schema config passage.field passage.mode passage.promotion.arguments

theorem definitions_outcome :
    passage.outcome.definitions = rewriting.changed :: rewriting.others := by
  rw [outcome, rewriting.whole]
  rfl

theorem target :
    fieldAt? rewriting.definition.selections rewriting.found.indices =
        some rewriting.found.field ∧
      PassDirective.findPaginate? rewriting.found.field.directives =
        some rewriting.found.mark :=
  PaginatedField.fieldAt?_of_single rewriting.only

theorem keepsMark :
    MarkedField.KeepsMark rewriting.edit rewriting.found.field := by
  obtain ⟨target, marked⟩ := rewriting.target
  exact Pipeline.keepsMark_pagingEdit schema config _ _ _
    (MarkedField.unmarked_of_single (by rw [marked]; rfl) target rewriting.only)

variable {refetch : Option RefetchSpec}

include rewriting

theorem primary?_outcome :
    ({ passage.outcome with refetch } : Document).primary? = some rewriting.changed := by
  rw [Document.primary?]
  exact (congrArg List.head? rewriting.definitions_outcome).trans rfl

/-- The same field is found again, with its new arguments. -/
theorem find_outcome :
    PaginatedField.find schema { passage.outcome with refetch } =
      .ok (some { passage.field with arguments := passage.promotion.arguments }) := by
  refine PaginatedField.find_eq_ok_some_iff.mpr
    ⟨rewriting.changed,
      { rewriting.found with field := rewriting.edit rewriting.found.field },
      rewriting.primary?_outcome, ?_, ?_, ?_⟩
  · exact PaginatedField.inDefinition_edited rewriting.only rewriting.keepsMark rewriting.edited
      (Pipeline.rootType_rewritten ..) (Pipeline.selections_rewritten ..)
  · exact (Pipeline.canPage_rewritten ..).trans rewriting.able
  · have again := PaginatedField.ofMarked_edited rewriting.read rewriting.keepsMark
      (by simp only [edit, Pipeline.pagingEdit_eq])
    simpa only [edit, Pipeline.pagingEdit_eq] using again

theorem variableSet_outcome :
    ({ passage.outcome with refetch } : Document).variableSet =
      .ok passage.promotion.variableSet.asDeclared := by
  obtain ⟨added, extended⟩ := passage.exists_added
  rw [Document.variableSet_eq rewriting.primary?_outcome]
  exact (Document.variableSetOf_withSelections _ _).trans
    (Document.variableSetOf_declareIn rewriting.declared extended)

/-- Rewriting once more finds everything in place. -/
theorem promoteField_outcome :
    Pipeline.promoteField schema config
        { passage.field with arguments := passage.promotion.arguments } passage.mode
        { passage.promotion with variableSet := passage.promotion.variableSet.asDeclared }
        { passage.outcome with refetch } =
      .ok { passage.outcome with refetch } := by
  have definitions : ({ passage.outcome with refetch } : Document).definitions =
      rewriting.changed :: rewriting.others := rewriting.definitions_outcome
  refine (Pipeline.promoteField_eq_ok_iff definitions).mpr ⟨rewriting.selections, ?_, ?_⟩
  · have stands := fieldAt?_of_editFieldAt? rewriting.target.1 rewriting.edited
    rw [← field_indices rewriting.read] at stands
    have fixed := editFieldAt?_eq_self stands
      (Pipeline.pagingEdit_pagingEdit schema config passage.field passage.mode
        passage.promotion.arguments rewriting.found.field)
    exact (congrArg (editFieldAt? _ · _) (Pipeline.selections_rewritten ..)).trans fixed
  · simp only [changed, Pipeline.rewritten_rewritten]
    exact congrArg (fun definitions => { passage.outcome with definitions, refetch })
      rewriting.definitions_outcome

end Rewriting

/-! ## What stays -/

theorem name_outcome (passage : Passage schema config document) :
    passage.outcome.name = document.name := by
  obtain ⟨rewriting⟩ := passage.exists_rewriting
  rw [outcome, rewriting.whole]

theorem source_outcome (passage : Passage schema config document) :
    passage.outcome.source = document.source := by
  obtain ⟨rewriting⟩ := passage.exists_rewriting
  rw [outcome, rewriting.whole]

theorem generated_outcome (passage : Passage schema config document) :
    passage.outcome.generated = document.generated := by
  obtain ⟨rewriting⟩ := passage.exists_rewriting
  rw [outcome, rewriting.whole]

/-- A fragment stays a fragment with its name and its type condition. -/
theorem fragment?_outcome (passage : Passage schema config document) :
    passage.outcome.fragment?.map (fun fragment => (fragment.name, fragment.condition)) =
      document.fragment?.map fun fragment => (fragment.name, fragment.condition) := by
  obtain ⟨rewriting⟩ := passage.exists_rewriting
  rw [Document.fragment?, rewriting.primary?_outcome, Document.fragment?, Document.primary?,
    rewriting.parts]
  simp only [Rewriting.changed, List.head?_cons, Option.bind_some]
  cases rewriting.definition <;> rfl

theorem identity_eq_none_iff (passage : Passage schema config document) :
    passage.identity = none ↔ document.fragment? = none := by
  have isIdentified := passage.isIdentified
  have sameFragment := passage.fragment?_outcome
  unfold Pipeline.identityOf at isIdentified
  have promoted : passage.outcome.fragment? = passage.promoted.fragment? := rfl
  rw [promoted] at sameFragment
  cases fragment : passage.promoted.fragment? with
  | none =>
      rw [fragment] at isIdentified sameFragment
      have none := Except.ok.inj isIdentified
      simpa [← none] using sameFragment.symm
  | some body =>
      rw [fragment] at isIdentified sameFragment
      constructor
      · intro none
        rw [none] at isIdentified
        cases resolved : Identity.resolve schema config body.condition <;>
          simp [resolved, Except.map] at isIdentified
      · intro none
        rw [none] at sameFragment
        cases sameFragment

/-! ## Passing once more -/

/-- A refetch spec does not tell declared variables from promoted ones. -/
theorem build_asDeclared (inputs : RefetchInputs) :
    RefetchSpec.build { inputs with variableSet := inputs.variableSet.asDeclared } =
      RefetchSpec.build inputs := by
  have sameDefaults : (RefetchInputs.firstDefault?
      { inputs with variableSet := inputs.variableSet.asDeclared }) = inputs.firstDefault? := by
    funext arguments
    refine congrArg (List.findSome? · arguments) (funext fun argument => ?_)
    simp only [RefetchInputs.default?]
    exact congrArg (Option.bind _) (funext fun name => VariableSet.default?_asDeclared _ name)
  simp only [RefetchSpec.build, sameDefaults]
  rfl

/-- What the first phase made of a document goes through it unchanged, whatever refetch spec is
attached to it. -/
theorem process_again (passage : Passage schema config document)
    (refetch : Option RefetchSpec) :
    Pipeline.process schema config { passage.outcome with refetch } =
      .ok (some ⟨{ passage.outcome with refetch }, passage.outcome, passage.identity⟩) := by
  obtain ⟨rewriting⟩ := passage.exists_rewriting
  refine Pipeline.process_eq_ok_some_iff.mpr ⟨{
    field := { passage.field with arguments := passage.promotion.arguments }
    existing := passage.promotion.variableSet.asDeclared
    mode := passage.mode
    promotion :=
      { passage.promotion with variableSet := passage.promotion.variableSet.asDeclared }
    promoted := { passage.outcome with refetch }
    kind := passage.kind
    queryRoot := passage.queryRoot
    identity := passage.identity
    isFound := rewriting.find_outcome
    isRead := rewriting.variableSet_outcome
    isDetected := Promotion.detect_promoted passage.isDetected passage.isPromoted
    isPromoted := Promotion.promote_promoted passage.isPromoted
    isRewritten := rewriting.promoteField_outcome
    hasKind := passage.hasKind
    hasRoot := passage.hasRoot
    isIdentified := passage.isIdentified }, ?_⟩
  exact congrArg
    (fun spec => (⟨{ passage.outcome with refetch },
      { passage.promoted with refetch := some spec }, passage.identity⟩ : Processed))
    (build_asDeclared passage.inputs).symm

end Passage

/-! ## The first phase, case by case -/

namespace Pipeline

variable {schema : Schema} {config : IdentityConfig} {document : Document}

inductive FirstPhase (schema : Schema) (config : IdentityConfig) (document : Document) :
    Except Diagnostic (Option Processed) → Prop where
  | untouched
      (unmarked : ¬ document.IsMarked) :
      FirstPhase schema config document (.ok none)
  | failed
      (marked : document.IsMarked)
      (span : Option Span) (stage : Stage) (fault : Fault)
      (early : stage ≠ .embed) :
      FirstPhase schema config document (.error (Diagnostic.ofFault document span stage fault))
  | paged
      (marked : document.IsMarked)
      (passage : Passage schema config document) :
      FirstPhase schema config document
        (.ok (some ⟨document, passage.outcome, passage.identity⟩))

theorem firstPhase {queryRoot : Name}
    (hasRoot : schema.queryRoot? = some queryRoot)
    (config : IdentityConfig) (document : Document) :
    FirstPhase schema config document (process schema config document) := by
  have unmarked := @process_eq_ok_none_iff schema config document queryRoot hasRoot
  cases result : process schema config document with
  | error diagnostic =>
      obtain ⟨span, stage, fault, early, rfl⟩ := exists_fault_of_process result
      refine .failed (Classical.not_not.mp fun isUnmarked => ?_) span stage fault early
      rw [unmarked.mpr isUnmarked] at result
      cases result
  | ok processed? =>
      cases processed? with
      | none => exact .untouched (unmarked.mp result)
      | some processed =>
          obtain ⟨passage, rfl⟩ := process_eq_ok_some_iff.mp result
          refine .paged (Classical.not_not.mp fun isUnmarked => ?_) passage
          rw [unmarked.mpr isUnmarked] at result
          cases result

end Pipeline

end QueryPaging
