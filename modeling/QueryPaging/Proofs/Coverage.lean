import QueryPaging.Proofs.Levels
import QueryPaging.Schema.BuiltIn

/-!
# Selections and their metadata

Metadata cover a selection set if every object finds in them each response key it answers, level by
level down to the leaves. Metadata of a document do so just where the groups they record hold all
that is selected; a field is missed where another condition than its own is recorded for an object
type, or where its key is recorded with the selections of another condition.

- `Covers` says what metadata should hold, by following the document with its spreads.
- `Misses` says what the recorded groups leave out, in the selections with spreads replaced.
- `covers_selectionMetadata_iff`: metadata cover a document just where nothing is missed.
-/

namespace QueryPaging

/-! ## What should be found -/

/-- Whether some response key that is selected is not found in the metadata of a level or below. -/
inductive Loses (schema : Schema) (index : FragmentIndex) :
    SelectionMetadata → String → List Selection → Prop where
  | key {level : SelectionMetadata} {parent : String} {selections : List Selection}
      {object : Name} {field : Field}
      (possible : object ∈ schema.possibleTypes parent)
      (collected : Collects schema index object selections field)
      (absent : Table.get? field.responseKey.text (level.fieldsFor object) = none) :
      Loses schema index level parent selections
  | deeper {level : SelectionMetadata} {parent : String} {selections : List Selection}
      {object : Name} {field : Field} {entry : FieldMetadata}
      (possible : object ∈ schema.possibleTypes parent)
      (collected : Collects schema index object selections field)
      (recorded : Table.get? field.responseKey.text (level.fieldsFor object) = some entry)
      (inside : Loses schema index entry.inner entry.type field.selections) :
      Loses schema index level parent selections

/-- Whether every object that a level may stand for finds each response key it answers, and below
the key all that is selected there. -/
def Covers (schema : Schema) (index : FragmentIndex) (level : SelectionMetadata) (parent : String)
    (selections : List Selection) : Prop :=
  ¬ Loses schema index level parent selections

/-! ## What is left out -/

/-- Whether some response key that is selected is not in the group recorded for an object type, or
not below the fields of that group. -/
inductive Misses (schema : Schema) :
    String → (recorded selected : List Selection) → Prop where
  | key {parent : String} {recorded selected : List Selection} {object : Name} {field : Field}
      (possible : object ∈ schema.possibleTypes parent)
      (gathered : field ∈ gatheredOf schema object selected)
      (absent : recordedGroup? schema parent (occurrencesOf none recorded) object
        field.responseKey.text = none) :
      Misses schema parent recorded selected
  | deeper {parent type : String} {recorded selected merged : List Selection} {object : Name}
      {field : Field}
      (possible : object ∈ schema.possibleTypes parent)
      (gathered : field ∈ gatheredOf schema object selected)
      (found : recordedGroup? schema parent (occurrencesOf none recorded) object
        field.responseKey.text = some (type, merged))
      (inside : Misses schema type merged field.selections) :
      Misses schema parent recorded selected

/-- Levels that are deep enough lose just what the recorded groups leave out. -/
theorem loses_levels_iff (builder : MetadataBuilder) {index : FragmentIndex}
    (acyclic : index.IsAcyclic) {depth : Nat} {parent : String}
    {recorded selections : List Selection} (context : LevelContext)
    (enough : nestingOf recorded ≤ depth) :
    Loses builder.schema index (builder.levels depth parent recorded context) parent selections ↔
      Misses builder.schema parent recorded (index.expand selections) := by
  induction depth using Nat.strongRecOn generalizing parent recorded selections context with
  | ind depth inductionHypothesis =>
      have related := builder.rel_levels parent context enough
      constructor
      · intro loses
        cases loses with
        | key possible collected absent =>
            have gathered := mem_gatheredOf_expand_of_collects acyclic collected
            exact .key possible gathered ((eq_none_iff_of_related (related _ _)).mp absent)
        | deeper possible collected found inside =>
            have gathered := mem_gatheredOf_expand_of_collects acyclic collected
            obtain ⟨group, isGroup, sameType, lower, below, less, shallow, same⟩ :=
              exists_right_of_related (related _ _) found
            rw [sameType, same] at inside
            exact .deeper possible gathered isGroup
              ((inductionHypothesis lower less below shallow).mp inside)
      · intro misses
        cases misses with
        | key possible gathered absent =>
            obtain ⟨source, collected, rfl⟩ := (mem_gatheredOf_expand_iff acyclic).mp gathered
            exact .key possible collected ((eq_none_iff_of_related (related _ _)).mpr absent)
        | deeper possible gathered isGroup inside =>
            obtain ⟨source, collected, rfl⟩ := (mem_gatheredOf_expand_iff acyclic).mp gathered
            obtain ⟨entry, found, sameType, lower, below, less, shallow, same⟩ :=
              exists_left_of_related (related _ _) isGroup
            refine .deeper possible collected found ?_
            rw [sameType, same]
            exact (inductionHypothesis lower less below shallow).mpr inside

/-! ## Documents -/

def fragmentsOf (definitions : List Definition) : FragmentIndex :=
  FragmentIndex.ofFragments (definitions.filterMap Definition.fragment?)

/-- What the first operation among some definitions selects. -/
def operationSelections (definitions : List Definition) : List Selection :=
  ((definitions.findSome? Definition.operation?).map (·.selections)).getD []

/-- What the metadata of a document are built with. -/
def builderOf (schema : Schema) (refetch : Option RefetchSpec) (variants : Nat) :
    MetadataBuilder where
  schema := schema
  method := refetch.map (·.method)
  hints := ((refetch.map MergeHint.forSpec).map fun hints =>
    (List.replicate variants hints).flatten).getD []

theorem selectionMetadata_eq (schema : Schema) (definitions : List Definition)
    (rootType : String) (refetch : Option RefetchSpec) (variants : Nat) :
    selectionMetadata schema definitions rootType refetch variants =
      (builderOf schema refetch variants).levels
        (nestingOf ((fragmentsOf definitions).expand (operationSelections definitions))) rootType
        ((fragmentsOf definitions).expand (operationSelections definitions)) .plain := by
  rfl

mutual

/-- Whether the schema knows every field of a selection on the type it is selected on. -/
def Selection.isKnown (schema : Schema) (parent : String) : Selection → Bool
  | .field ⟨_, name, _, _, selections, _⟩ =>
      (schema.fieldType? parent name).any fun type => areKnown schema type.inner selections
  | .spread _ => true
  | .inline ⟨condition, _, selections⟩ =>
      areKnown schema ((condition.map Name.text).getD parent) selections

def areKnown (schema : Schema) (parent : String) : List Selection → Bool
  | [] => true
  | selection :: others => selection.isKnown schema parent && areKnown schema parent others

end

/-- Whether the schema knows every field of a definition. -/
def Definition.isKnown (schema : Schema) (rootType : String) : Definition → Bool
  | .operation body => areKnown schema rootType body.selections
  | .fragment body => areKnown schema body.condition body.selections

/-! ## A small document -/

namespace Kennel

def shelterType : Name := ⟨"Shelter", by decide⟩
def petType : Name := ⟨"Pet", by decide⟩
def catType : Name := ⟨"Cat", by decide⟩
def personType : Name := ⟨"Person", by decide⟩
def pet : Name := ⟨"pet", by decide⟩
def owner : Name := ⟨"owner", by decide⟩
def phone : Name := ⟨"phone", by decide⟩
def street : Name := ⟨"street", by decide⟩
def catOwner : Name := ⟨"CatOwner", by decide⟩

def fieldOf (name type : Name) : FieldDefinition :=
  ⟨name, [], .named type false⟩

/-- A schema in which pets have owners, and cats are pets. -/
def schema : Schema where
  types := Schema.BuiltIn.types ++
    [⟨shelterType, .object [] [fieldOf pet petType]⟩,
      ⟨petType, .interface [] [fieldOf owner personType]⟩,
      ⟨catType, .object [petType] [fieldOf owner personType]⟩,
      ⟨personType, .object [] [fieldOf phone Name.stringType, fieldOf street Name.stringType]⟩]
  roots := [⟨.query, shelterType⟩]
  directives := []

def select (name : Name) (selections : List Selection) : Selection :=
  .field (FieldOf.plain name selections)

/-- Of every pet the phone of its owner is selected, and of cats the street too. -/
def definitions : List Definition :=
  [.operation ⟨.query, none, [], [],
      [select pet [select owner [select phone []], .spread ⟨catOwner, []⟩]], none⟩,
    .fragment ⟨catOwner, catType, [], [select owner [select street []]], none⟩]

theorem isAcyclic_definitions :
    (fragmentsOf definitions).IsAcyclic := by
  have noSpread : ∀ start name, ¬ (fragmentsOf definitions).Spreads start name := by
    rintro start name ⟨fragment, found, member⟩
    have only : fragmentsOf definitions =
        [(catOwner, ⟨catOwner, catType, [], [select owner [select street []]], none⟩)] := by rfl
    rw [only, Table.get?_cons] at found
    split at found
    · cases found
      have none : spreadNamesOf [select owner [select street []]] = [] := by rfl
      rw [none] at member
      cases member
    · cases found
  intro name reaches
  cases reaches with
  | single step => exact noSpread _ _ step
  | tail _ step => exact noSpread _ _ step

/-- The fields of cats are recorded without those that every pet has under the same key. -/
theorem misses_definitions :
    Misses schema shelterType
      ((fragmentsOf definitions).expand (operationSelections definitions))
      ((fragmentsOf definitions).expand (operationSelections definitions)) := by
  have expanded : (fragmentsOf definitions).expand (operationSelections definitions) =
      [select pet [select owner [select phone []],
        .inline ⟨some catType, [], [select owner [select street []]]⟩]] := by rfl
  rw [expanded]
  refine @Misses.deeper schema shelterType petType _ _ _ shelterType
    (FieldOf.plain pet [select owner [select phone []],
        .inline ⟨some catType, [], [select owner [select street []]]⟩])
    (by decide) (List.mem_singleton_self _) rfl ?_
  refine @Misses.deeper schema petType personType _ _ _ catType
    (FieldOf.plain owner [select phone []])
    (by decide) List.mem_cons_self rfl ?_
  exact @Misses.key schema personType _ _ personType (FieldOf.plain phone [])
    (by decide) List.mem_cons_self rfl

end Kennel

/-! ## The metadata of a document -/

section Metadata

variable {schema : Schema} {definitions : List Definition}

/-- Metadata cover a document in which no fragment reaches itself just where the groups that they
record leave out nothing that is selected. -/
theorem covers_selectionMetadata_iff
    (acyclic : (fragmentsOf definitions).IsAcyclic) (rootType : String)
    (refetch : Option RefetchSpec) (variants : Nat) :
    Covers schema (fragmentsOf definitions)
        (selectionMetadata schema definitions rootType refetch variants) rootType
        (operationSelections definitions) ↔
      ¬ Misses schema rootType
        ((fragmentsOf definitions).expand (operationSelections definitions))
        ((fragmentsOf definitions).expand (operationSelections definitions)) := by
  rw [Covers, selectionMetadata_eq]
  exact not_congr
    (loses_levels_iff (builderOf schema refetch variants) acyclic .plain (Nat.le_refl _))

/-- The document on pets has a fragment, which spreads no other. -/
theorem covers_selectionMetadata_iff_kennel :
    (fragmentsOf Kennel.definitions).IsAcyclic ∧
      (Covers Kennel.schema (fragmentsOf Kennel.definitions)
          (selectionMetadata Kennel.schema Kennel.definitions Kennel.shelterType none 1)
          Kennel.shelterType (operationSelections Kennel.definitions) ↔
        ¬ Misses Kennel.schema Kennel.shelterType
          ((fragmentsOf Kennel.definitions).expand (operationSelections Kennel.definitions))
          ((fragmentsOf Kennel.definitions).expand (operationSelections Kennel.definitions))) :=
  ⟨Kennel.isAcyclic_definitions,
    covers_selectionMetadata_iff Kennel.isAcyclic_definitions Kennel.shelterType none 1⟩

/-- Not every document is covered: what every pet answers under a key is lost for cats where they
answer something of their own under it. -/
theorem not_forall_covers_selectionMetadata :
    ¬ ∀ (schema : Schema) (definitions : List Definition) (rootType : String)
      (refetch : Option RefetchSpec) (variants : Nat),
      (fragmentsOf definitions).IsAcyclic →
      (∀ definition ∈ definitions, definition.isKnown schema rootType = true) →
      Covers schema (fragmentsOf definitions)
        (selectionMetadata schema definitions rootType refetch variants) rootType
        (operationSelections definitions) := by
  intro always
  have known : ∀ definition ∈ Kennel.definitions,
      definition.isKnown Kennel.schema Kennel.shelterType = true := by decide
  have covers := always Kennel.schema Kennel.definitions Kennel.shelterType none 1
    Kennel.isAcyclic_definitions known
  rw [selectionMetadata_eq] at covers
  exact covers ((loses_levels_iff (builderOf Kennel.schema none 1) Kennel.isAcyclic_definitions
    .plain (Nat.le_refl _)).mpr Kennel.misses_definitions)

end Metadata

end QueryPaging
