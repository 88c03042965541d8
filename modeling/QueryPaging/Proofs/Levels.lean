import QueryPaging.Proofs.Expansion
import QueryPaging.Proofs.Tables

/-!
# What a level records

The metadata of a level is looked up for an object type: in the fields of the type itself, or else
in those of an abstract condition it falls under, or else in those that every object answers. Here
that lookup is told without tables, by the groups of fields that share a condition and a key.

- `recordedGroup?`: the fields of a level that are recorded under a key for an object type.
- `get?_fieldsFor_level`: the metadata found for an object type is that of the recorded group.
-/

namespace QueryPaging

/-- The fields recorded for an object type: its own, or else those of the abstract condition it is
mapped to, or else the common ones. -/
def SelectionMetadataOf.fieldsFor {Entry : Type} (level : SelectionMetadataOf Entry)
    (object : String) : Table String Entry :=
  match level.abstractFields with
  | none => level.fields
  | some split =>
      match Table.get? object split.fields with
      | some own => own
      | none =>
          match Table.get? object split.typeMap with
          | some condition => (Table.get? condition split.fields).getD []
          | none => level.fields

/-! ## Groups -/

/-- Whether a condition is abstract and an object type falls under it. -/
def Schema.coversObject (schema : Schema) (object condition : Name) : Bool :=
  schema.isAbstract condition.text && (schema.possibleTypes condition.text).contains object

section Groups

variable (schema : Schema) (parent : String) (occurrences : List Occurrence)

/-- The conditions that do not apply to every object of the parent, in order. -/
def specificConditions : List Name :=
  occurrences.filterMap (Occurrence.specificTo? schema parent)

/-- The condition whose fields are recorded for an object type: the type itself, or else the first
abstract one that the type falls under. -/
def recordedCondition? (object : Name) : Option Name :=
  if object ∈ specificConditions schema parent occurrences then
    some object
  else
    (specificConditions schema parent occurrences).find? (schema.coversObject object)

/-- The fields with a response key that stand under a condition, or under none. -/
def groupUnder (condition : Option Name) (key : String) : List Occurrence :=
  occurrences.filter fun occurrence =>
    occurrence.specificTo? schema parent = condition ∧ occurrence.field.responseKey.text = key

/-- The type of the first field of a group, and the selections of all. A group whose first field
the schema does not know is passed over. -/
def mergedGroup? (group : List Occurrence) : Option (String × List Selection) := do
  let first ← group.head?
  let type ← schema.fieldType? ((first.condition.map Name.text).getD parent) first.field.name
  return (type.inner, group.flatMap (·.field.selections))

/-- What is recorded under a key for an object type: the group of its condition, or else the group
that every object answers. -/
def recordedGroup? (object : Name) (key : String) : Option (String × List Selection) :=
  ((recordedCondition? schema parent occurrences object).bind fun condition =>
      mergedGroup? schema parent (groupUnder schema parent occurrences (some condition) key))
    <|> mergedGroup? schema parent (groupUnder schema parent occurrences none key)

end Groups

/-! ## Related lookups -/

section Related

variable {Left Right : Type} {relation : Left → Right → Prop} {left : Option Left}
  {right : Option Right}
  (related : Option.Rel relation left right)

include related

theorem eq_none_iff_of_related :
    left = none ↔ right = none := by
  cases related <;> simp

theorem exists_right_of_related {value : Left}
    (found : left = some value) :
    ∃ other, right = some other ∧ relation value other := by
  cases related with
  | none => cases found
  | some same =>
      cases found
      exact ⟨_, rfl, same⟩

theorem exists_left_of_related {value : Right}
    (found : right = some value) :
    ∃ other, left = some other ∧ relation other value := by
  cases related with
  | none => cases found
  | some same =>
      cases found
      exact ⟨_, rfl, same⟩

end Related

/-! ## The tables of a level -/

namespace MetadataBuilder

variable (builder : MetadataBuilder) (below : Below) (parent : String) (context : LevelContext)
  (occurrences : List Occurrence)

theorem get?_fields (key : String) :
    (builder.fields below parent context occurrences).get? key =
      builder.field? below parent context
        (occurrences.filter (·.field.responseKey.text = key)) := by
  have distinct := Table.nodup_keys_groupBy
    (fun occurrence : Occurrence => occurrence.field.responseKey.text) occurrences
  have found := Table.get?_filterMap
    (fun _ group => builder.field? below parent context group) key distinct
  refine found.trans ?_
  rw [Table.get?_groupBy]
  split
  · next none =>
      rw [List.isEmpty_iff.mp none]
      rfl
  · rfl

theorem get?_conditionEntries (condition : String) (types : List Name) (object : Name) :
    Table.get? object.text (types.map fun type => (type.text, condition)) =
      if object ∈ types then some condition else none := by
  induction types with
  | nil => rfl
  | cons first others inductionHypothesis =>
      rw [List.map_cons, Table.get?_cons]
      by_cases same : first = object
      · rw [if_pos (congrArg Name.text same), if_pos (by simp [same])]
      · have different : first.text ≠ object.text := fun equal => same (Name.eq_of_text_eq equal)
        have other : object ≠ first := Ne.symm same
        rw [if_neg different, inductionHypothesis]
        simp [other]

/-- An object type without fields of its own is mapped to the first abstract condition that it
falls under. -/
theorem get?_typeMap (schema : Schema) (conditions : List Name) (object : Name) :
    (typeMap schema conditions).get? object.text =
      if object ∈ conditions then none
      else (conditions.find? (schema.coversObject object)).map Name.text := by
  have entries : ∀ candidates : List Name,
      Table.get? object.text ((candidates.filter (schema.isAbstract ·.text)).flatMap
          fun condition =>
            ((schema.possibleTypes condition.text).filter (!conditions.contains ·)).map
              fun type => (type.text, condition.text)) =
        if object ∈ conditions then none
        else (candidates.find? (schema.coversObject object)).map Name.text := by
    intro candidates
    induction candidates with
    | nil => simp
    | cons first others inductionHypothesis =>
        rw [List.find?_cons]
        by_cases isAbstract : schema.isAbstract first.text = true
        · have kept : (first :: others).filter (schema.isAbstract ·.text) =
              first :: others.filter (schema.isAbstract ·.text) := by simp [isAbstract]
          rw [kept, List.flatMap_cons, Table.get?_append, inductionHypothesis,
            get?_conditionEntries]
          by_cases own : object ∈ conditions
          · simp [own]
          · by_cases falls : object ∈ schema.possibleTypes first.text <;>
              simp [own, falls, isAbstract, Schema.coversObject]
        · have dropped : (first :: others).filter (schema.isAbstract ·.text) =
              others.filter (schema.isAbstract ·.text) := by simp [isAbstract]
          rw [dropped, inductionHypothesis]
          simp [isAbstract, Schema.coversObject]
  have filled := Table.get?_foldl_putNew object.text
    ((conditions.filter (schema.isAbstract ·.text)).flatMap fun condition =>
      ((schema.possibleTypes condition.text).filter (!conditions.contains ·)).map
        fun type => (type.text, condition.text)) []
  rw [Table.get?_nil, entries conditions] at filled
  exact filled

/-! ## The lookup of an object type -/

/-- Fields with the conditions that tell them apart. -/
def specificEntries (schema : Schema) : List (Name × Occurrence) :=
  occurrences.filterMap fun occurrence =>
    (occurrence.specificTo? schema parent).map (·, occurrence)

theorem map_fst_specificEntries (schema : Schema) :
    (specificEntries parent occurrences schema).map (·.1) =
      specificConditions schema parent occurrences := by
  rw [specificEntries, List.map_filterMap, specificConditions]
  refine congrArg (List.filterMap · occurrences) (funext fun occurrence => ?_)
  cases occurrence.specificTo? schema parent <;> rfl

theorem map_snd_specificEntries (schema : Schema) (condition : Name) :
    ((specificEntries parent occurrences schema).filter (·.1 = condition)).map (·.2) =
      occurrences.filter (·.specificTo? schema parent = some condition) := by
  induction occurrences with
  | nil => rfl
  | cons first others inductionHypothesis =>
      rw [specificEntries] at inductionHypothesis ⊢
      cases under : first.specificTo? schema parent with
      | none => simpa [under] using inductionHypothesis
      | some other =>
          by_cases same : other = condition
          · simpa [under, same] using inductionHypothesis
          · simpa [under, same] using inductionHypothesis

theorem mem_specificConditions_iff (schema : Schema) {condition : Name} :
    condition ∈ specificConditions schema parent occurrences ↔
      (occurrences.filter (·.specificTo? schema parent = some condition)).isEmpty = false := by
  rw [specificConditions, List.mem_filterMap, ← Bool.not_eq_true, List.isEmpty_iff,
    List.filter_eq_nil_iff]
  simp

/-- The groups of fields that some types answer, by condition. -/
def specificGroups (schema : Schema) : Table Name (List Occurrence) :=
  Table.pushAll [] (specificEntries parent occurrences schema)

theorem get?_specificGroups (schema : Schema) (condition : Name) :
    (specificGroups parent occurrences schema).get? condition =
      if condition ∈ specificConditions schema parent occurrences then
        some (occurrences.filter (·.specificTo? schema parent = some condition))
      else
        none := by
  rw [specificGroups, Table.get?_pushAll, map_snd_specificEntries, Table.get?_nil,
    Option.getD_none, List.nil_append]
  have same := congrArg List.isEmpty (map_snd_specificEntries parent occurrences schema condition)
  rw [List.isEmpty_map] at same
  rw [same]
  have member := @mem_specificConditions_iff parent occurrences schema condition
  cases empty : (occurrences.filter (·.specificTo? schema parent = some condition)).isEmpty with
  | true =>
      have absent : condition ∉ specificConditions schema parent occurrences := by
        rw [member, empty]
        decide
      rw [if_pos rfl, if_neg absent]
  | false =>
      have present := member.mpr empty
      rw [if_neg (by decide), if_pos present]

/-- The metadata of the fields under a condition do not depend on the parent, as the condition is
their parent. -/
theorem field?_groupUnder (condition : Name) (key : String) :
    builder.field? below condition context
        (groupUnder builder.schema parent occurrences (some condition) key) =
      builder.field? below parent context
        (groupUnder builder.schema parent occurrences (some condition) key) := by
  cases group : groupUnder builder.schema parent occurrences (some condition) key with
  | nil => rfl
  | cons first others =>
      have member : first ∈ groupUnder builder.schema parent occurrences (some condition) key := by
        rw [group]
        exact List.mem_cons_self
      have stands : first.condition = some condition := by
        have specific : first.specificTo? builder.schema parent = some condition := by
          have kept := (List.mem_filter.mp member).2
          simp only [decide_eq_true_eq] at kept
          exact kept.1
        unfold Occurrence.specificTo? at specific
        split at specific
        · next inner isInner =>
            split at specific
            · rw [isInner, Option.some.inj specific]
            · cases specific
        · cases specific
      simp only [field?, List.head?_cons, bind, Option.bind, stands, Option.map_some,
        Option.getD_some]

/-- The metadata of the fields that every object answers. -/
def commonFields : Table String FieldMetadata :=
  builder.fields below parent context
    (occurrences.filter fun occurrence =>
      (occurrence.specificTo? builder.schema parent).isNone)

/-- The metadata of the fields that some types answer, by condition. -/
def conditionFields : Table String (Table String FieldMetadata) :=
  (specificGroups parent occurrences builder.schema).map fun entry =>
    (entry.1.text,
      (builder.commonFields below parent context occurrences).foldl
        (fun fields entry => Table.putNew entry.1 entry.2 fields)
        (builder.fields below entry.1 context entry.2))

theorem level_eq (selections : List Selection) :
    builder.level below parent selections context =
      let occurrences := occurrencesOf none selections
      { fields := builder.commonFields below parent context occurrences
        abstractFields :=
          if (specificGroups parent occurrences builder.schema).isEmpty then none
          else some ⟨builder.conditionFields below parent context occurrences,
            typeMap builder.schema (specificGroups parent occurrences builder.schema).keys⟩ } := by
  rfl

theorem get?_commonFields (key : String) :
    (builder.commonFields below parent context occurrences).get? key =
      builder.field? below parent context
        (groupUnder builder.schema parent occurrences none key) := by
  rw [commonFields, get?_fields, List.filter_filter, groupUnder]
  refine congrArg (builder.field? below parent context) (List.filter_congr fun occurrence _ => ?_)
  cases occurrence.specificTo? builder.schema parent <;> simp

theorem get?_underCondition (condition : Name) (key : String) :
    (builder.fields below condition context
        (occurrences.filter (·.specificTo? builder.schema parent = some condition))).get? key =
      builder.field? below parent context
        (groupUnder builder.schema parent occurrences (some condition) key) := by
  rw [get?_fields, List.filter_filter, ← field?_groupUnder, groupUnder]
  refine congrArg (builder.field? below condition context)
    (List.filter_congr fun occurrence _ => ?_)
  rw [Bool.and_comm, Bool.decide_and]

/-- Under a condition, its own fields come before the common ones. -/
theorem get?_conditionFields (condition : Name) (key : String) :
    ((builder.conditionFields below parent context occurrences).get? condition.text).map
        (Table.get? key) =
      if condition ∈ specificConditions builder.schema parent occurrences then
        some (builder.field? below parent context
            (groupUnder builder.schema parent occurrences (some condition) key)
          <|> builder.field? below parent context
            (groupUnder builder.schema parent occurrences none key))
      else
        none := by
  have renamed := Table.get?_map (fun _ _ => Name.eq_of_text_eq)
    (fun (condition : Name) group =>
      (builder.commonFields below parent context occurrences).foldl
        (fun fields entry => Table.putNew entry.1 entry.2 fields)
        (builder.fields below condition context group))
    condition (specificGroups parent occurrences builder.schema)
  rw [conditionFields, renamed, get?_specificGroups]
  split
  · rw [Option.map_some, Option.map_some, Table.get?_foldl_putNew, get?_commonFields,
      get?_underCondition]
  · rfl

theorem mem_keys_specificGroups (schema : Schema) {condition : Name} :
    condition ∈ (specificGroups parent occurrences schema).keys ↔
      condition ∈ specificConditions schema parent occurrences := by
  rw [specificGroups, Table.mem_keys_pushAll, map_fst_specificEntries]
  simp [Table.keys]

theorem find?_keys_specificGroups (schema : Schema) (property : Name → Bool) :
    (specificGroups parent occurrences schema).keys.find? property =
      (specificConditions schema parent occurrences).find? property := by
  rw [specificGroups, Table.find?_keys_pushAll, map_fst_specificEntries]
  rfl

theorem isEmpty_specificGroups_iff (schema : Schema) :
    (specificGroups parent occurrences schema).isEmpty = true ↔
      specificConditions schema parent occurrences = [] := by
  rw [List.eq_nil_iff_forall_not_mem, List.isEmpty_iff]
  constructor
  · intro empty condition present
    have member := (mem_keys_specificGroups parent occurrences schema).mpr present
    rw [empty] at member
    cases member
  · intro none
    refine List.eq_nil_iff_forall_not_mem.mpr fun entry among => ?_
    exact none entry.1 ((mem_keys_specificGroups parent occurrences schema).mp
      (List.mem_map_of_mem among))

/-- The metadata recorded for an object type under a key. -/
def recordedField? (object : Name) (key : String) : Option FieldMetadata :=
  ((recordedCondition? builder.schema parent occurrences object).bind fun condition =>
      builder.field? below parent context
        (groupUnder builder.schema parent occurrences (some condition) key))
    <|> builder.field? below parent context
      (groupUnder builder.schema parent occurrences none key)

/-- The metadata found for an object type is that of the group recorded for it. -/
theorem get?_fieldsFor_level (selections : List Selection) (object : Name) (key : String) :
    Table.get? key ((builder.level below parent selections context).fieldsFor object) =
      builder.recordedField? below parent context (occurrencesOf none selections) object key := by
  rw [level_eq]
  generalize occurrencesOf none selections = occurrences
  have isCommon := builder.get?_commonFields below parent context occurrences key
  have isMapped := get?_typeMap builder.schema
    (specificGroups parent occurrences builder.schema).keys object
  have isAnswer := fun condition =>
    builder.get?_conditionFields below parent context occurrences condition key
  simp only [mem_keys_specificGroups, find?_keys_specificGroups] at isMapped
  rw [recordedField?, recordedCondition?]
  by_cases empty : specificConditions builder.schema parent occurrences = []
  · have noGroups := (isEmpty_specificGroups_iff parent occurrences builder.schema).mpr empty
    rw [if_neg (by rw [empty]; exact List.not_mem_nil), empty, List.find?_nil, Option.bind_none]
    simp only [SelectionMetadataOf.fieldsFor, noGroups, if_true]
    exact isCommon
  · have someGroups := mt (isEmpty_specificGroups_iff parent occurrences builder.schema).mp empty
    simp only [SelectionMetadataOf.fieldsFor, if_neg someGroups]
    by_cases own : object ∈ specificConditions builder.schema parent occurrences
    · have answered := isAnswer object
      rw [if_pos own] at answered ⊢
      obtain ⟨fields, found, same⟩ := Option.map_eq_some_iff.mp answered
      simp only [found]
      exact same
    · have unanswered := isAnswer object
      rw [if_neg own] at unanswered isMapped ⊢
      simp only [Option.map_eq_none_iff.mp unanswered, isMapped]
      cases first : (specificConditions builder.schema parent occurrences).find?
          (builder.schema.coversObject object) with
      | none => exact isCommon
      | some condition =>
          have answered := isAnswer condition
          rw [if_pos (List.mem_of_find?_eq_some first)] at answered
          obtain ⟨fields, found, same⟩ := Option.map_eq_some_iff.mp answered
          simp only [Option.map_some, found, Option.getD_some]
          exact same

/-! ## Metadata and groups -/

/-- Whether metadata stand for a group: for its type, and for what lies below it. -/
structure Describes (entry : FieldMetadata) (group : String × List Selection) : Prop where
  type : entry.type = group.1
  selection : ∃ context, entry.selection =
    if group.2.isEmpty then none else some (below group.1 group.2 context)

theorem rel_field? (group : List Occurrence) :
    Option.Rel (Describes below) (builder.field? below parent context group)
      (mergedGroup? builder.schema parent group) := by
  unfold field? mergedGroup?
  cases group.head? with
  | none => exact .none
  | some first =>
      simp only [bind, Option.bind]
      cases builder.schema.fieldType? ((first.condition.map Name.text).getD parent)
          first.field.name.text with
      | none => exact .none
      | some type => exact .some ⟨rfl, _, rfl⟩

theorem rel_recordedField? (object : Name) (key : String) :
    Option.Rel (Describes below)
      (builder.recordedField? below parent context occurrences object key)
      (recordedGroup? builder.schema parent occurrences object key) := by
  have common := builder.rel_field? below parent context
    (groupUnder builder.schema parent occurrences none key)
  unfold recordedField? recordedGroup?
  cases recordedCondition? builder.schema parent occurrences object with
  | none => exact common
  | some condition =>
      have own := builder.rel_field? below parent context
        (groupUnder builder.schema parent occurrences (some condition) key)
      rw [Option.bind_some, Option.bind_some]
      cases merged : mergedGroup? builder.schema parent
          (groupUnder builder.schema parent occurrences (some condition) key) with
      | none =>
          rw [(eq_none_iff_of_related own).mpr merged]
          exact common
      | some group =>
          obtain ⟨entry, found, describes⟩ := exists_left_of_related own merged
          rw [found]
          exact .some describes

end MetadataBuilder

/-! ## Depth -/

theorem nestingOf_append (initial later : List Selection) :
    nestingOf (initial ++ later) = max (nestingOf initial) (nestingOf later) := by
  induction initial with
  | nil => rw [List.nil_append, nestingOf, Nat.zero_max]
  | cons first others inductionHypothesis =>
      rw [List.cons_append, nestingOf, nestingOf, inductionHypothesis, Nat.max_assoc]

/-- Below a field that occurs, fields lie less deep. -/
theorem nestingOf_lt_of_mem_occurrencesOf {condition : Option Name} {selections : List Selection}
    {occurrence : Occurrence}
    (member : occurrence ∈ occurrencesOf condition selections) :
    nestingOf occurrence.field.selections < nestingOf selections := by
  induction selections using selectionsInduction generalizing condition with
  | nil =>
      rw [occurrencesOf] at member
      cases member
  | field field others _ behind =>
      obtain ⟨aliasName, name, arguments, directives, selections, span⟩ := field
      rw [occurrencesOf, List.mem_append, Selection.occurrences, List.mem_singleton] at member
      rw [nestingOf, Selection.nesting]
      rcases member with rfl | later
      · exact Nat.lt_of_lt_of_le (Nat.lt_succ_self _) (Nat.le_max_left ..)
      · exact Nat.lt_of_lt_of_le (behind later) (Nat.le_max_right ..)
  | spread spread others behind =>
      rw [occurrencesOf, List.mem_append, Selection.occurrences] at member
      rw [nestingOf]
      exact Nat.lt_of_lt_of_le (behind (member.resolve_left List.not_mem_nil))
        (Nat.le_max_right ..)
  | inline inline others below behind =>
      obtain ⟨inner, directives, selections⟩ := inline
      rw [occurrencesOf, List.mem_append, Selection.occurrences] at member
      rw [nestingOf, Selection.nesting]
      rcases member with inside | later
      · exact Nat.lt_of_lt_of_le (below inside) (Nat.le_max_left ..)
      · exact Nat.lt_of_lt_of_le (behind later) (Nat.le_max_right ..)

theorem nestingOf_flatMap_le {group : List Occurrence} {bound : Nat}
    (each : ∀ occurrence ∈ group, nestingOf occurrence.field.selections ≤ bound) :
    nestingOf (group.flatMap (·.field.selections)) ≤ bound := by
  induction group with
  | nil =>
      rw [List.flatMap_nil, nestingOf]
      exact Nat.zero_le bound
  | cons first others inductionHypothesis =>
      have here := each first List.mem_cons_self
      have behind := inductionHypothesis fun occurrence member =>
        each occurrence (List.mem_cons_of_mem first member)
      rw [List.flatMap_cons, nestingOf_append]
      exact Nat.max_le.mpr ⟨here, behind⟩

theorem exists_of_mergedGroup? {schema : Schema} {parent : String} {group : List Occurrence}
    {merged : String × List Selection}
    (found : mergedGroup? schema parent group = some merged) :
    group ≠ [] ∧ merged.2 = group.flatMap (·.field.selections) := by
  cases group with
  | nil => cases found
  | cons first others =>
      unfold mergedGroup? at found
      simp only [List.head?_cons, bind, Option.bind] at found
      split at found
      · cases found
      · cases found
        exact ⟨nofun, rfl⟩

/-- Below what is recorded at a level, fields lie less deep. -/
theorem nestingOf_recordedGroup?_lt {schema : Schema} {parent : String}
    {selections : List Selection} {object : Name} {key : String}
    {group : String × List Selection}
    (recorded :
      recordedGroup? schema parent (occurrencesOf none selections) object key = some group) :
    nestingOf group.2 < nestingOf selections := by
  have shallow : ∀ condition, mergedGroup? schema parent
        (groupUnder schema parent (occurrencesOf none selections) condition key) = some group →
      nestingOf group.2 < nestingOf selections := by
    intro condition found
    obtain ⟨nonempty, merged⟩ := exists_of_mergedGroup? found
    have below : ∀ occurrence ∈
        groupUnder schema parent (occurrencesOf none selections) condition key,
        nestingOf occurrence.field.selections < nestingOf selections := fun occurrence member =>
      nestingOf_lt_of_mem_occurrencesOf (List.mem_filter.mp member).1
    obtain ⟨first, present⟩ := List.exists_mem_of_ne_nil _ nonempty
    have positive := below first present
    have bounded := nestingOf_flatMap_le fun occurrence member =>
      Nat.le_sub_one_of_lt (below occurrence member)
    rw [merged]
    omega
  unfold recordedGroup? at recorded
  cases own : recordedCondition? schema parent (occurrencesOf none selections) object with
  | none =>
      rw [own] at recorded
      exact shallow none recorded
  | some condition =>
      rw [own, Option.bind_some] at recorded
      cases found : mergedGroup? schema parent
          (groupUnder schema parent (occurrencesOf none selections) (some condition) key) with
      | none =>
          rw [found] at recorded
          exact shallow none recorded
      | some other =>
          rw [found] at recorded
          cases recorded
          exact shallow (some condition) found

/-! ## All levels -/

/-- The metadata below a field, which are those of nothing if nothing is selected there. -/
def FieldMetadata.inner (entry : FieldMetadata) : SelectionMetadata :=
  entry.selection.getD ⟨[], none⟩

namespace MetadataBuilder

theorem levels_nil (builder : MetadataBuilder) (depth : Nat) (parent : String)
    (context : LevelContext) :
    builder.levels depth parent [] context = ⟨[], none⟩ := by
  cases depth with
  | zero => rfl
  | succ depth =>
      have noFields : occurrencesOf none [] = [] := by rw [occurrencesOf]
      rw [levels]
      beta_reduce
      rw [level_eq, noFields]
      rfl

/-- What levels hold that are deep enough: for every object type and key the type of the recorded
group, and the levels below it. -/
theorem rel_levels (builder : MetadataBuilder) {depth : Nat} (parent : String)
    {selections : List Selection} (context : LevelContext)
    (enough : nestingOf selections ≤ depth) (object : Name) (key : String) :
    Option.Rel (fun entry group => entry.type = group.1 ∧ ∃ lower context, lower < depth ∧
        nestingOf group.2 ≤ lower ∧ entry.inner = builder.levels lower group.1 group.2 context)
      (Table.get? key ((builder.levels depth parent selections context).fieldsFor object))
      (recordedGroup? builder.schema parent (occurrencesOf none selections) object key) := by
  have shallow := fun group => @nestingOf_recordedGroup?_lt builder.schema parent selections object
    key group
  cases depth with
  | zero =>
      cases recorded : recordedGroup? builder.schema parent (occurrencesOf none selections)
          object key with
      | none => exact .none
      | some group =>
          have less := shallow group recorded
          omega
  | succ depth =>
      have related := builder.rel_recordedField? (builder.levels depth) parent context
        (occurrencesOf none selections) object key
      rw [levels, get?_fieldsFor_level]
      cases recorded : recordedGroup? builder.schema parent (occurrencesOf none selections)
          object key with
      | none =>
          rw [(eq_none_iff_of_related related).mpr recorded]
          exact .none
      | some group =>
          obtain ⟨entry, found, describes⟩ := exists_left_of_related related recorded
          obtain ⟨lower, selected⟩ := describes.selection
          have less := shallow group recorded
          have below : nestingOf group.2 ≤ depth := by omega
          rw [found]
          refine .some ⟨describes.type, depth, lower, Nat.lt_succ_self depth, below, ?_⟩
          rw [FieldMetadata.inner, selected]
          split
          · next empty =>
              rw [List.isEmpty_iff.mp empty, levels_nil]
              rfl
          · rfl

end MetadataBuilder

end QueryPaging
