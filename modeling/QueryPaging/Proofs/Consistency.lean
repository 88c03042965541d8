import QueryPaging.Proofs.Coverage
import QueryPaging.Proofs.Sites

/-!
# The shape of metadata

A store finds the fields of an object by the tables of a level, and the level below a field by the
type of its entry. Here it is said which tables there are and how they fit together, at every level
of the metadata of every document.

- `AbstractFieldsOf.IsConsistent`: how the fields of an abstract parent are split by condition.
- `OpenLevel.IsConsistent`: a level with its tables, and each entry with the type of its field.
- `OpenLevel.isConsistent_of_opens`: all levels of a document are consistent.
-/

namespace QueryPaging

/-! ## Consistent tables -/

/-- How the fields of an abstract parent are split by condition, beside those that every object
answers. -/
structure AbstractFieldsOf.IsConsistent (schema : Schema) (parent : String)
    (common : Table String FieldMetadata) (split : AbstractFields) : Prop where
  isAbstract : schema.isAbstract parent = true
  nonempty : split.fields ≠ []
  /-- The fields on the parent itself are the common ones. -/
  parentAbsent : parent ∉ Table.keys split.fields
  distinctConditions : (Table.keys split.fields).Nodup
  named : ∀ condition ∈ Table.keys split.fields, ∃ name : Name, name.text = condition
  distinctKeys : ∀ entry ∈ split.fields, (Table.keys entry.2).Nodup
  holdsCommon : ∀ entry ∈ split.fields, ∀ key ∈ common.keys, key ∈ Table.keys entry.2
  distinctTypes : (Table.keys split.typeMap).Nodup
  disjoint : ∀ type ∈ Table.keys split.typeMap, type ∉ Table.keys split.fields
  /-- An object type is mapped to an abstract condition that it falls under. -/
  mapped : ∀ entry ∈ split.typeMap, entry.2 ∈ Table.keys split.fields ∧
    schema.isAbstract entry.2 = true ∧ ∃ type, schema.IsPossible entry.2 type ∧ type.text = entry.1
  /-- No object type that falls under an abstract condition is left out. -/
  answered : ∀ condition ∈ Table.keys split.fields, schema.isAbstract condition = true →
    ∀ type, schema.IsPossible condition type →
      type.text ∈ Table.keys split.fields ∨ type.text ∈ Table.keys split.typeMap

/-- How the tables of a level fit together. -/
structure SelectionMetadataOf.IsConsistent (schema : Schema) (parent : String)
    (level : SelectionMetadata) : Prop where
  distinct : (Table.keys level.fields).Nodup
  split : ∀ split, level.abstractFields = some split →
    split.IsConsistent schema parent level.fields

/-- Whether an entry stands in one of the tables of a level. -/
inductive SelectionMetadataOf.Holds (level : SelectionMetadata) (entry : FieldMetadata) : Prop where
  | common {key : String}
      (member : (key, entry) ∈ level.fields) :
      Holds level entry
  | under {split : AbstractFields} {condition key : String} {fields : Table String FieldMetadata}
      (isSplit : level.abstractFields = some split)
      (among : (condition, fields) ∈ split.fields)
      (member : (key, entry) ∈ fields) :
      Holds level entry

/-- Every entry of consistent tables stands at some place. -/
theorem SelectionMetadataOf.exists_entryAt?_of_holds {schema : Schema} {parent : String}
    {level : SelectionMetadata} {entry : FieldMetadata}
    (consistent : level.IsConsistent schema parent)
    (holds : level.Holds entry) :
    ∃ place, level.entryAt? place = some entry := by
  cases holds with
  | @common key member =>
      exact ⟨⟨none, key⟩, Table.get?_eq_some_of_mem consistent.distinct member⟩
  | @under split condition key fields isSplit among member =>
      have shape := consistent.split split isSplit
      obtain ⟨name, rfl⟩ := shape.named condition (List.mem_map_of_mem among)
      have isFields := Table.get?_eq_some_of_mem shape.distinctConditions among
      have isEntry := Table.get?_eq_some_of_mem (shape.distinctKeys _ among) member
      refine ⟨⟨some name, key⟩, ?_⟩
      rw [SelectionMetadataOf.entryAt?, isSplit]
      simp only [Option.bind_some, isFields, isEntry]

namespace MetadataBuilder

section TypeMap

variable {schema : Schema} {conditions : List Name}

theorem nodup_keys_typeMap (schema : Schema) (conditions : List Name) :
    (Table.keys (typeMap schema conditions)).Nodup :=
  Table.nodup_keys_foldl_putNew _ List.nodup_nil

theorem exists_of_mem_typeMap {entry : String × String}
    (member : entry ∈ typeMap schema conditions) :
    ∃ condition ∈ conditions, schema.isAbstract condition.text = true ∧
      ∃ type, schema.IsPossible condition.text type ∧ type ∉ conditions ∧
        entry = (type.text, condition.text) := by
  rcases Table.mem_of_mem_foldl_putNew member with absent | among
  · cases absent
  · obtain ⟨condition, isCondition, among⟩ := List.mem_flatMap.mp among
    obtain ⟨type, isType, same⟩ := List.mem_map.mp among
    obtain ⟨known, isAbstract⟩ := List.mem_filter.mp isCondition
    obtain ⟨possible, notCondition⟩ := List.mem_filter.mp isType
    exact ⟨condition, known, isAbstract, type, Schema.mem_possibleTypes_iff.mp possible,
      by simpa using notCondition, same.symm⟩

/-- An object type under an abstract condition has fields of its own or is mapped. -/
theorem mem_or_mem_keys_typeMap {condition type : Name}
    (member : condition ∈ conditions)
    (isAbstract : schema.isAbstract condition.text = true)
    (possible : schema.IsPossible condition.text type) :
    type ∈ conditions ∨ type.text ∈ Table.keys (typeMap schema conditions) := by
  by_cases own : type ∈ conditions
  · exact .inl own
  · refine .inr (Table.mem_keys_foldl_putNew.mpr (.inr ?_))
    refine List.mem_map.mpr ⟨(type.text, condition.text), List.mem_flatMap.mpr ?_, rfl⟩
    exact ⟨condition, List.mem_filter.mpr ⟨member, isAbstract⟩, List.mem_map.mpr
      ⟨type, List.mem_filter.mpr ⟨Schema.mem_possibleTypes_iff.mpr possible, by simpa using own⟩,
        rfl⟩⟩

end TypeMap

variable (builder : MetadataBuilder) (below : Below) (parent : String) (context : LevelContext)
  (occurrences : List Occurrence)

theorem nodup_keys_fields :
    (Table.keys (builder.fields below parent context occurrences)).Nodup :=
  (Table.nodup_keys_groupBy
    (fun occurrence : Occurrence => occurrence.field.responseKey.text) occurrences).sublist
    (Table.keys_filterMap_sublist (fun _ group => builder.field? below parent context group) _)

theorem keys_conditionFields :
    Table.keys (builder.conditionFields below parent context occurrences) =
      (specificGroups parent occurrences builder.schema).keys.map Name.text := by
  rw [conditionFields, Table.keys, Table.keys, List.map_map, List.map_map]
  rfl

theorem mem_keys_conditionFields {condition : Name} :
    condition.text ∈ Table.keys (builder.conditionFields below parent context occurrences) ↔
      condition ∈ (specificGroups parent occurrences builder.schema).keys := by
  rw [keys_conditionFields, List.mem_map]
  constructor
  · rintro ⟨other, member, same⟩
    exact Name.eq_of_text_eq same ▸ member
  · exact fun member => ⟨condition, member, rfl⟩

theorem nodup_keys_conditionFields :
    (Table.keys (builder.conditionFields below parent context occurrences)).Nodup := by
  have distinct : (specificGroups parent occurrences builder.schema).keys.Nodup :=
    Table.nodup_keys_pushAll [] _ List.nodup_nil
  rw [keys_conditionFields, List.Nodup, List.pairwise_map]
  exact distinct.imp fun different same => different (Name.eq_of_text_eq same)

/-- Only an abstract parent has fields that some of its objects answer, and no such field stands
under the parent itself. -/
theorem isAbstract_and_ne_of_mem_specificConditions {schema : Schema} {parent : String}
    {occurrences : List Occurrence} {condition : Name}
    (member : condition ∈ specificConditions schema parent occurrences) :
    schema.isAbstract parent = true ∧ condition.text ≠ parent := by
  obtain ⟨occurrence, _, specific⟩ := List.mem_filterMap.mp member
  unfold Occurrence.specificTo? at specific
  split at specific
  · split at specific
    · next applies =>
        obtain rfl := Option.some.inj specific
        simpa using applies
    · cases specific
  · cases specific

theorem isConsistent_split
    (specific : specificConditions builder.schema parent occurrences ≠ []) :
    AbstractFieldsOf.IsConsistent builder.schema parent
      (builder.commonFields below parent context occurrences)
      ⟨builder.conditionFields below parent context occurrences,
        typeMap builder.schema (specificGroups parent occurrences builder.schema).keys⟩ := by
  obtain ⟨condition, stands⟩ := List.exists_mem_of_ne_nil _ specific
  have known := @mem_keys_conditionFields builder below parent context occurrences
  constructor
  case isAbstract => exact (isAbstract_and_ne_of_mem_specificConditions stands).1
  case nonempty =>
    intro empty
    have member := known.mpr
      ((mem_keys_specificGroups parent occurrences builder.schema).mpr stands)
    simp only at empty
    rw [empty] at member
    cases member
  case parentAbsent =>
    intro member
    simp only at member
    rw [keys_conditionFields] at member
    obtain ⟨other, isCondition, same⟩ := List.mem_map.mp member
    exact (isAbstract_and_ne_of_mem_specificConditions
      ((mem_keys_specificGroups parent occurrences builder.schema).mp isCondition)).2 same
  case distinctConditions =>
    exact builder.nodup_keys_conditionFields below parent context occurrences
  case named =>
    intro text member
    simp only at member
    rw [keys_conditionFields] at member
    obtain ⟨name, _, same⟩ := List.mem_map.mp member
    exact ⟨name, same⟩
  case distinctKeys =>
    intro entry member
    obtain ⟨group, _, rfl⟩ := List.mem_map.mp member
    exact Table.nodup_keys_foldl_putNew _ (builder.nodup_keys_fields below _ context _)
  case holdsCommon =>
    intro entry member key isCommon
    obtain ⟨group, _, rfl⟩ := List.mem_map.mp member
    exact Table.mem_keys_foldl_putNew.mpr (.inr isCommon)
  case distinctTypes => exact nodup_keys_typeMap _ _
  case disjoint =>
    intro type isMapped member
    obtain ⟨entry, among, rfl⟩ := List.mem_map.mp isMapped
    obtain ⟨_, _, _, type, _, notCondition, rfl⟩ := exists_of_mem_typeMap among
    exact notCondition (known.mp member)
  case mapped =>
    intro entry member
    obtain ⟨condition, isCondition, isAbstract, type, possible, _, rfl⟩ :=
      exists_of_mem_typeMap member
    exact ⟨known.mpr isCondition, isAbstract, type, possible, rfl⟩
  case answered =>
    intro text member isAbstract type possible
    simp only at member
    rw [keys_conditionFields] at member
    obtain ⟨condition, isCondition, rfl⟩ := List.mem_map.mp member
    exact (mem_or_mem_keys_typeMap isCondition isAbstract possible).imp_left known.mpr

theorem isConsistent_level (selections : List Selection) :
    (builder.level below parent selections context).IsConsistent builder.schema parent := by
  rw [level_eq]
  refine ⟨builder.nodup_keys_fields below parent context _, fun split isSplit => ?_⟩
  simp only [Option.ite_none_left_eq_some, Option.some.injEq] at isSplit
  obtain ⟨someGroups, rfl⟩ := isSplit
  exact builder.isConsistent_split below parent context _
    (mt (isEmpty_specificGroups_iff parent _ builder.schema).mpr someGroups)

theorem isConsistent_levels (depth : Nat) (selections : List Selection) :
    (builder.levels depth parent selections context).IsConsistent builder.schema parent := by
  cases depth with
  | zero => exact ⟨List.nodup_nil, fun split isSplit => by cases isSplit⟩
  | succ depth => exact builder.isConsistent_level _ parent context selections

variable {builder : MetadataBuilder} {below : Below} {parent : String} {context : LevelContext}

theorem exists_field?_eq_some {first : Occurrence} {others : List Occurrence}
    (known : first.answerType? builder.schema parent ≠ none) :
    ∃ entry, builder.field? below parent context (first :: others) = some entry := by
  obtain ⟨type, isType⟩ := Option.ne_none_iff_exists'.mp known
  rw [Occurrence.answerType?] at isType
  simp only [field?, List.head?_cons, Option.bind_eq_bind, Option.bind_some, isType]
  exact ⟨_, rfl⟩

end MetadataBuilder

/-! ## Consistent levels -/

namespace OpenLevel

/-- Where the entry of a field of a level stands. -/
def placeOf (schema : Schema) (level : OpenLevel) (site : Site) : EntryPlace where
  condition := site.specificTo? schema level.parent
  key := site.field.responseKey.text

/-- How what is recorded at a level goes with the fields that are selected there. -/
structure IsConsistent (schema : Schema) (level : OpenLevel) : Prop where
  tables : level.recorded.IsConsistent schema level.parent
  /-- The walk misses no entry. -/
  reached : ∀ entry, level.recorded.Holds entry →
    ∃ place, level.recorded.entryAt? place = some entry
  /-- An entry tells the type of the first field of its response key. -/
  typed : ∀ place entry, level.recorded.entryAt? place = some entry →
    ∃ first others type, level.group schema place = first :: others ∧
      first.field.responseKey.text = place.key ∧
      first.answerType? schema level.parent = some type ∧
      entry.type = type.inner ∧ entry.nullable = !type.isRequired ∧
      entry.isAbstract = schema.isAbstract type.inner
  /-- Every response key has an entry, unless the schema does not know the first of its fields. -/
  answered : ∀ site ∈ sitesIn level.scopes, ∀ first others,
    level.group schema (level.placeOf schema site) = first :: others →
    first.answerType? schema level.parent ≠ none →
    ∃ entry, level.recorded.entryAt? (level.placeOf schema site) = some entry

/-- What is recorded at a level is what the builder makes of its selection sets, down to their
leaves. -/
def IsWhole (builder : MetadataBuilder) (level : OpenLevel) : Prop :=
  ∃ depth, nestingOf (selectionsIn level.scopes) ≤ depth ∧ level.recorded =
    builder.levels depth level.parent (selectionsIn level.scopes) (contextOf level.trail)

variable {builder : MetadataBuilder} {root level : OpenLevel} {place : EntryPlace}
  {entry : FieldMetadata}

theorem IsWhole.isBuiltBy
    (whole : level.IsWhole builder) :
    level.IsBuiltBy builder := by
  obtain ⟨depth, _, same⟩ := whole
  exact ⟨depth, same⟩

theorem nestingOf_lt_of_mem_sitesIn {scopes : List Scope} {site : Site}
    (member : site ∈ sitesIn scopes) :
    nestingOf site.field.selections < nestingOf (selectionsIn scopes) := by
  refine @nestingOf_lt_of_mem_occurrencesOf none _ _ ?_
  rw [← map_toOccurrence_sitesIn]
  exact List.mem_map_of_mem member

theorem isWhole_of_opens
    (whole : root.IsWhole builder)
    (opens : Opens builder.schema root level) :
    level.IsWhole builder := by
  induction opens with
  | root => exact whole
  | @inner level place entry recorded _ found leads inductionHypothesis =>
      obtain ⟨depth, enough, same⟩ := inductionHypothesis
      obtain ⟨lower, rfl, made⟩ := exists_field?_of_eq_levels same found
      obtain ⟨_, _, _, isBuilt⟩ := exists_head_of_field?_eq_some made
      -- The fields of a group lie below the selections of the level, so one level less will do.
      refine ⟨lower, ?_, isBuilt _ leads⟩
      have shallow : nestingOf (selectionsIn (scopesBelow builder.schema
          (level.group builder.schema place))) ≤ lower := by
        rw [selectionsIn_scopesBelow]
        refine nestingOf_flatMap_le fun occurrence member => ?_
        obtain ⟨site, among, rfl⟩ := List.mem_map.mp member
        have less := nestingOf_lt_of_mem_sitesIn (mem_of_mem_groupAt among)
        omega
      exact shallow

theorem responseKey_of_mem_group {schema : Schema} {site : Site}
    (member : site ∈ level.group schema place) :
    site.field.responseKey.text = place.key := by
  rw [group, groupAt] at member
  split at member
  all_goals
    have kept := (List.mem_filter.mp member).2
    rw [decide_eq_true_eq] at kept
    exact kept.2

theorem isConsistent_of_isWhole
    (whole : level.IsWhole builder) :
    level.IsConsistent builder.schema := by
  obtain ⟨depth, enough, same⟩ := whole
  have tables : level.recorded.IsConsistent builder.schema level.parent := by
    rw [same]
    exact builder.isConsistent_levels level.parent _ depth _
  constructor
  case tables => exact tables
  case reached => exact fun _ => SelectionMetadataOf.exists_entryAt?_of_holds tables
  case typed =>
    intro place entry found
    obtain ⟨lower, _, made⟩ := exists_field?_of_eq_levels same found
    obtain ⟨first, others, type, isGroup, known, madeFrom⟩ :=
      MetadataBuilder.exists_of_field?_eq_some made
    obtain ⟨site, more, isSites, rfl, _⟩ := List.map_eq_cons_iff.mp isGroup
    refine ⟨site, more, type, isSites, ?_, known, madeFrom.type, madeFrom.nullable,
      madeFrom.isAbstract⟩
    exact responseKey_of_mem_group (isSites ▸ List.mem_cons_self)
  case answered =>
    intro site member first others isGroup known
    have less := nestingOf_lt_of_mem_sitesIn member
    cases depth with
    | zero => omega
    | succ lower =>
        have stands : (level.placeOf builder.schema site).condition.all
            (· ∈ specificConditions builder.schema level.parent
              ((sitesIn level.scopes).map Site.toOccurrence)) = true := by
          rw [Option.all_eq_true]
          intro condition isCondition
          exact decide_eq_true (List.mem_filterMap.mpr
            ⟨site.toOccurrence, List.mem_map_of_mem member, isCondition⟩)
        rw [same, MetadataBuilder.levels, MetadataBuilder.entryAt?_level _
          (map_toOccurrence_sitesIn level.scopes), if_pos stands]
        rw [group] at isGroup
        rw [isGroup, List.map_cons]
        exact MetadataBuilder.exists_field?_eq_some known

/-- The metadata of a document, with its selections, in which spreads have been replaced. -/
def ofDocument (schema : Schema) (definitions : List Definition) (rootType : String)
    (refetch : Option RefetchSpec) (variants : Nat) : OpenLevel where
  recorded := selectionMetadata schema definitions rootType refetch variants
  parent := rootType
  scopes :=
    [⟨Name.ofText? rootType, (fragmentsOf definitions).expand (operationSelections definitions)⟩]
  trail := []

theorem isWhole_ofDocument (schema : Schema) (definitions : List Definition) (rootType : String)
    (refetch : Option RefetchSpec) (variants : Nat) :
    (ofDocument schema definitions rootType refetch variants).IsWhole
      (builderOf schema refetch variants) := by
  have selected : selectionsIn (ofDocument schema definitions rootType refetch variants).scopes =
      (fragmentsOf definitions).expand (operationSelections definitions) :=
    List.flatMap_singleton ..
  rw [IsWhole, selected]
  exact ⟨_, Nat.le_refl _, selectionMetadata_eq schema definitions rootType refetch variants⟩

/-- At every level of the metadata of a document, the tables fit together, and each response key
has the entry of its first field. -/
theorem isConsistent_of_opens {schema : Schema} {definitions : List Definition}
    {rootType : String} {refetch : Option RefetchSpec} {variants : Nat}
    (opens : Opens schema (ofDocument schema definitions rootType refetch variants) level) :
    level.IsConsistent schema :=
  isConsistent_of_isWhole (isWhole_of_opens
    (isWhole_ofDocument schema definitions rootType refetch variants) opens)

/-- Under the pets of a shelter, the fields of cats are kept apart. -/
theorem isConsistent_of_opens_kennel :
    ∃ level, Opens Kennel.schema
        (ofDocument Kennel.schema Kennel.definitions Kennel.shelterType none 1) level ∧
      level.recorded.abstractFields.isSome = true ∧ level.IsConsistent Kennel.schema := by
  have found : ∃ entry recorded,
      (ofDocument Kennel.schema Kennel.definitions Kennel.shelterType none 1).recorded.entryAt?
        ⟨none, "pet"⟩ = some entry ∧ entry.selection = some recorded ∧
        recorded.abstractFields.isSome = true :=
    ⟨_, _, rfl, rfl, rfl⟩
  obtain ⟨entry, recorded, isEntry, leads, isSplit⟩ := found
  have opens := Opens.inner (@Opens.root Kennel.schema _) isEntry leads
  exact ⟨_, opens, isSplit, isConsistent_of_opens opens⟩

end OpenLevel

end QueryPaging
