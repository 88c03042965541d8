import QueryPaging.Proofs.Levels

/-!
# Where the entries of metadata come from

An entry of selection metadata stands for a group of fields that share a response key. Here metadata
are walked together with the selections they were built from, so that every entry is met with its
group and with the groups that lead to it.

- `Site`: a field of a level with the type that its selection set is made on.
- `Opens`: the levels that the walk comes to.
- `BelongsTo`: the paginated fields whose list an entry is a part of.
- `OpenLevel.isBuiltBy_of_opens`: each level is what the builder makes of its selection sets.
-/

namespace QueryPaging

/-! ## Sites -/

/-- A field of a level with the innermost condition above it and the type that its selection set is
made on. -/
structure Site extends Occurrence where
  type : Option Name

mutual

/-- The fields of a selection that is made on a type. -/
def Selection.sites (condition type : Option Name) : Selection → List Site
  | .field body => [⟨⟨condition, body⟩, type⟩]
  | .spread _ => []
  | .inline ⟨inner, _, selections⟩ => sitesOf (inner <|> condition) (inner <|> type) selections

def sitesOf (condition type : Option Name) : List Selection → List Site
  | [] => []
  | selection :: others => selection.sites condition type ++ sitesOf condition type others

end

theorem map_toOccurrence_sitesOf (condition type : Option Name) (selections : List Selection) :
    (sitesOf condition type selections).map Site.toOccurrence =
      occurrencesOf condition selections := by
  induction selections using selectionsInduction generalizing condition type with
  | nil => rw [sitesOf, occurrencesOf, List.map_nil]
  | field field others _ behind =>
      rw [sitesOf, occurrencesOf, List.map_append, behind, Selection.sites, Selection.occurrences,
        List.map_singleton]
  | spread spread others behind =>
      rw [sitesOf, occurrencesOf, List.map_append, behind, Selection.sites, Selection.occurrences,
        List.map_nil]
  | inline inline others below behind =>
      obtain ⟨inner, directives, selections⟩ := inline
      rw [sitesOf, occurrencesOf, List.map_append, behind, Selection.sites, Selection.occurrences,
        below]

theorem occurrencesOf_append (condition : Option Name) (selections later : List Selection) :
    occurrencesOf condition (selections ++ later) =
      occurrencesOf condition selections ++ occurrencesOf condition later := by
  induction selections with
  | nil => rw [occurrencesOf, List.nil_append, List.nil_append]
  | cons selection others inductionHypothesis =>
      rw [List.cons_append, occurrencesOf, occurrencesOf, inductionHypothesis, List.append_assoc]

/-- A selection set with the type it is made on. -/
structure Scope where
  type : Option Name
  selections : List Selection

def sitesIn (scopes : List Scope) : List Site :=
  scopes.flatMap fun scope => sitesOf none scope.type scope.selections

def selectionsIn (scopes : List Scope) : List Selection :=
  scopes.flatMap (·.selections)

theorem map_toOccurrence_sitesIn (scopes : List Scope) :
    (sitesIn scopes).map Site.toOccurrence = occurrencesOf none (selectionsIn scopes) := by
  induction scopes with
  | nil =>
      rw [sitesIn, selectionsIn, List.flatMap_nil, List.flatMap_nil, occurrencesOf, List.map_nil]
  | cons scope others inductionHypothesis =>
      rw [sitesIn] at inductionHypothesis
      rw [sitesIn, selectionsIn, List.flatMap_cons, List.flatMap_cons, occurrencesOf_append,
        List.map_append, map_toOccurrence_sitesOf, inductionHypothesis, selectionsIn]

/-- The selection sets below some fields. -/
def scopesBelow (schema : Schema) (group : List Site) : List Scope :=
  group.map fun site =>
    ⟨MarkedField.childType schema site.type site.field.name, site.field.selections⟩

theorem selectionsIn_scopesBelow (schema : Schema) (group : List Site) :
    selectionsIn (scopesBelow schema group) =
      (group.map Site.toOccurrence).flatMap (·.field.selections) := by
  rw [selectionsIn, scopesBelow, List.flatMap_map, List.flatMap_map]

/-! ## Entries and their groups -/

/-- Where an entry stands in a level: under a response key, among the fields that every object
answers or among those of a condition. -/
structure EntryPlace where
  condition : Option Name
  key : String

/-- The entry of a level at a place. -/
def SelectionMetadataOf.entryAt? (level : SelectionMetadata) (place : EntryPlace) :
    Option FieldMetadata :=
  match place.condition with
  | none => Table.get? place.key level.fields
  | some condition =>
      level.abstractFields.bind fun split =>
        (Table.get? condition.text split.fields).bind (Table.get? place.key)

/-- The fields with a response key that stand under a condition, or under none. -/
def sitesUnder (schema : Schema) (parent : String) (sites : List Site) (condition : Option Name)
    (key : String) : List Site :=
  sites.filter fun site =>
    site.specificTo? schema parent = condition ∧ site.field.responseKey.text = key

/-- The fields that the entry at a place stands for: those under its condition, or else, if there
are none that the schema knows, those that every object answers. -/
def groupAt (schema : Schema) (parent : String) (sites : List Site) (place : EntryPlace) :
    List Site :=
  let own := sitesUnder schema parent sites place.condition place.key
  if (mergedGroup? schema parent (own.map Site.toOccurrence)).isSome then own
  else sitesUnder schema parent sites none place.key

theorem mem_of_mem_groupAt {schema : Schema} {parent : String} {sites : List Site}
    {place : EntryPlace} {site : Site}
    (member : site ∈ groupAt schema parent sites place) :
    site ∈ sites := by
  rw [groupAt] at member
  split at member
  · exact (List.mem_filter.mp member).1
  · exact (List.mem_filter.mp member).1

theorem map_toOccurrence_sitesUnder (schema : Schema) (parent : String) (sites : List Site)
    (condition : Option Name) (key : String) :
    (sitesUnder schema parent sites condition key).map Site.toOccurrence =
      groupUnder schema parent (sites.map Site.toOccurrence) condition key := by
  rw [sitesUnder, groupUnder, List.filter_map]
  rfl

/-- The type of what a field answers, if the schema knows it: on the condition that the field stands
under, or else on the parent. -/
def Occurrence.answerType? (schema : Schema) (parent : String) (occurrence : Occurrence) :
    Option TypeRef :=
  schema.fieldType? ((occurrence.condition.map Name.text).getD parent) occurrence.field.name

namespace MetadataBuilder

variable {builder : MetadataBuilder} {below : Below} {parent : String} {context : LevelContext}
  {entry : FieldMetadata}

theorem field?_eq_none_iff {group : List Occurrence} :
    builder.field? below parent context group = none ↔
      mergedGroup? builder.schema parent group = none :=
  eq_none_iff_of_related (builder.rel_field? below parent context group)

/-- What an entry takes from the fields of its group and the type of the first of them. -/
structure MadeFrom (builder : MetadataBuilder) (below : Below) (context : LevelContext)
    (group : List Occurrence) (first : Occurrence) (answer : TypeRef) (entry : FieldMetadata) :
    Prop where
  type : entry.type = answer.inner
  keyRaw : entry.keyRaw = QueryPaging.keyRaw first.field (group.any Occurrence.isPaginated)
  updates : entry.updates =
    builder.updates context (group.any Occurrence.isPaginated) first.field.name
  nullable : entry.nullable = !answer.isRequired
  selection : entry.selection =
    if (group.flatMap (·.field.selections)).isEmpty then none
    else some (below answer.inner (group.flatMap (·.field.selections))
      (contextBelow context (group.any Occurrence.isPaginated) first.field.name))
  isAbstract : entry.isAbstract = builder.schema.isAbstract answer.inner

/-- An entry is made from a group whose first field the schema knows. -/
theorem exists_of_field?_eq_some {group : List Occurrence}
    (made : builder.field? below parent context group = some entry) :
    ∃ first others type, group = first :: others ∧
      first.answerType? builder.schema parent = some type ∧
      builder.MadeFrom below context group first type entry := by
  simp only [field?, Option.bind_eq_bind, Option.bind_eq_some_iff, Option.pure_def] at made
  obtain ⟨first, isFirst, type, known, made⟩ := made
  obtain ⟨others, isGroup⟩ := List.head?_eq_some_iff.mp isFirst
  obtain rfl := Option.some.inj made
  exact ⟨first, others, type, isGroup, known, rfl, rfl, rfl, rfl, rfl, rfl⟩

/-- What the builder makes of the group of a place. -/
theorem field?_groupAt (sites : List Site) (place : EntryPlace) :
    builder.field? below parent context
        ((groupAt builder.schema parent sites place).map Site.toOccurrence) =
      (builder.field? below parent context
          (groupUnder builder.schema parent (sites.map Site.toOccurrence) place.condition place.key)
        <|> builder.field? below parent context
          (groupUnder builder.schema parent (sites.map Site.toOccurrence) none place.key)) := by
  rw [groupAt]
  simp only [map_toOccurrence_sitesUnder]
  cases own : builder.field? below parent context
      (groupUnder builder.schema parent (sites.map Site.toOccurrence) place.condition
        place.key) with
  | none =>
      have unknown := field?_eq_none_iff.mp own
      rw [if_neg (by simp [unknown]), map_toOccurrence_sitesUnder]
      rfl
  | some entry =>
      have known : (mergedGroup? builder.schema parent
          (groupUnder builder.schema parent (sites.map Site.toOccurrence) place.condition
            place.key)).isSome = true := by
        rw [Option.isSome_iff_ne_none]
        intro unknown
        rw [field?_eq_none_iff.mpr unknown] at own
        cases own
      rw [if_pos known, map_toOccurrence_sitesUnder, own]
      rfl

/-- The entry at a place of a level is what the builder makes of its group, provided that some field
stands under its condition. -/
theorem entryAt?_level {sites : List Site} {selections : List Selection} (place : EntryPlace)
    (same : sites.map Site.toOccurrence = occurrencesOf none selections) :
    (builder.level below parent selections context).entryAt? place =
      if place.condition.all (· ∈ specificConditions builder.schema parent
          (sites.map Site.toOccurrence)) then
        builder.field? below parent context
          ((groupAt builder.schema parent sites place).map Site.toOccurrence)
      else none := by
  obtain ⟨condition, key⟩ := place
  rw [field?_groupAt, level_eq, ← same, SelectionMetadataOf.entryAt?]
  generalize sites.map Site.toOccurrence = occurrences
  have common := builder.get?_commonFields below parent context occurrences key
  cases condition with
  | none =>
      simp only [Option.all_none, if_true]
      rw [common]
      cases builder.field? below parent context
        (groupUnder builder.schema parent occurrences none key) <;> rfl
  | some condition =>
      have answered := builder.get?_conditionFields below parent context occurrences condition key
      simp only [Option.all_some, decide_eq_true_eq]
      by_cases specific : condition ∈ specificConditions builder.schema parent occurrences
      · have someGroups := mt (isEmpty_specificGroups_iff parent occurrences builder.schema).mp
          (List.ne_nil_of_mem specific)
        rw [if_pos specific] at answered ⊢
        obtain ⟨fields, isFields, isEntry⟩ := Option.map_eq_some_iff.mp answered
        simp only [if_neg someGroups, Option.bind_some, isFields, isEntry]
      · rw [if_neg specific] at answered ⊢
        have absent := Option.map_eq_none_iff.mp answered
        split
        · rfl
        · simp only [Option.bind_some, absent, Option.bind_none]

end MetadataBuilder

/-! ## Open levels -/

/-- A level of metadata that was come to: what is recorded there, the type of its objects, the
selection sets it was built from and the groups of fields that lead to it, the innermost first. -/
structure OpenLevel where
  recorded : SelectionMetadata
  parent : String
  scopes : List Scope
  trail : List (List Site)

namespace OpenLevel

variable (schema : Schema)

def group (level : OpenLevel) (place : EntryPlace) : List Site :=
  groupAt schema level.parent (sitesIn level.scopes) place

/-- The groups that lead to an entry and on from it, its own first. -/
def leading (level : OpenLevel) (place : EntryPlace) : List (List Site) :=
  level.group schema place :: level.trail

/-- The level under an entry. -/
def under (level : OpenLevel) (place : EntryPlace) (type : String)
    (recorded : SelectionMetadata) : OpenLevel where
  recorded
  parent := type
  scopes := scopesBelow schema (level.group schema place)
  trail := level.leading schema place

/-- The levels that are come to from one of them. -/
inductive Opens (root : OpenLevel) : OpenLevel → Prop where
  | root : Opens root root
  | inner {level : OpenLevel} {place : EntryPlace} {entry : FieldMetadata}
      {recorded : SelectionMetadata}
      (opens : Opens root level)
      (found : level.recorded.entryAt? place = some entry)
      (leads : entry.selection = some recorded) :
      Opens root (level.under schema place entry.type recorded)

end OpenLevel

/-! ## The list that an entry is a part of -/

/-- The field by which a group is read, its first. -/
def headName? (group : List Site) : Option Name :=
  group.head?.map (·.field.name)

/-- The paginated fields to which an entry belongs by the groups that lead to it: a field that is
marked itself, or that answers the edges of a marked one, or anything in its page info. -/
inductive BelongsTo : List (List Site) → Site → Prop where
  | itself {group : List Site} {outer : List (List Site)} {site : Site}
      (member : site ∈ group)
      (marked : site.isPaginated = true) :
      BelongsTo (group :: outer) site
  | edges {group connection : List Site} {outer : List (List Site)} {site : Site}
      (called : headName? group = some Augmentation.edges)
      (member : site ∈ connection)
      (marked : site.isPaginated = true) :
      BelongsTo (group :: connection :: outer) site
  | pageInfo {group info connection : List Site} {outer : List (List Site)} {site : Site}
      (called : headName? info = some Augmentation.pageInfo)
      (unmarked : ∀ other ∈ info, other.isPaginated = false)
      (member : site ∈ connection)
      (marked : site.isPaginated = true) :
      BelongsTo (group :: info :: connection :: outer) site

/-- The context that the groups which lead to a level put it in. -/
def contextOf : List (List Site) → LevelContext
  | [] => .plain
  | group :: outer =>
      match headName? group with
      | none => .plain
      | some name =>
          MetadataBuilder.contextBelow (contextOf outer) (group.any (·.isPaginated)) name

namespace OpenLevel

variable {builder : MetadataBuilder} {root level : OpenLevel} {place : EntryPlace}
  {entry : FieldMetadata}

/-- What is recorded at a level is what the builder makes of its selection sets. -/
def IsBuiltBy (builder : MetadataBuilder) (level : OpenLevel) : Prop :=
  ∃ depth, level.recorded =
    builder.levels depth level.parent (selectionsIn level.scopes) (contextOf level.trail)

/-- An entry is what the builder makes of the group that it stands for, with one level less to
go. -/
theorem exists_field?_of_eq_levels {depth : Nat}
    (same : level.recorded =
      builder.levels depth level.parent (selectionsIn level.scopes) (contextOf level.trail))
    (found : level.recorded.entryAt? place = some entry) :
    ∃ lower, depth = lower + 1 ∧
      builder.field? (builder.levels lower) level.parent (contextOf level.trail)
        ((level.group builder.schema place).map Site.toOccurrence) = some entry := by
  rw [same] at found
  cases depth with
  | zero =>
      obtain ⟨condition, key⟩ := place
      cases condition <;> cases found
  | succ lower =>
      rw [MetadataBuilder.levels,
        MetadataBuilder.entryAt?_level place (map_toOccurrence_sitesIn level.scopes),
        Option.ite_none_right_eq_some] at found
      exact ⟨lower, rfl, found.2⟩

theorem any_isPaginated_map (group : List Site) :
    (group.map Site.toOccurrence).any Occurrence.isPaginated = group.any (·.isPaginated) := by
  rw [List.any_map]
  rfl

/-- What the first field of its group tells of an entry. -/
theorem exists_head_of_field?_eq_some {depth : Nat}
    (made : builder.field? (builder.levels depth) level.parent (contextOf level.trail)
      ((level.group builder.schema place).map Site.toOccurrence) = some entry) :
    ∃ name, headName? (level.group builder.schema place) = some name ∧
      entry.updates = builder.updates (contextOf level.trail)
        ((level.group builder.schema place).any (·.isPaginated)) name ∧
      ∀ recorded, entry.selection = some recorded →
        recorded = builder.levels depth entry.type
          (selectionsIn (scopesBelow builder.schema (level.group builder.schema place)))
          (contextOf (level.leading builder.schema place)) := by
  rw [leading]
  generalize level.group builder.schema place = group at made ⊢
  obtain ⟨first, others, type, isGroup, _, madeFrom⟩ :=
    MetadataBuilder.exists_of_field?_eq_some made
  obtain ⟨site, more, rfl, rfl, rfl⟩ := List.map_eq_cons_iff.mp isGroup
  refine ⟨site.field.name, rfl, ?_, fun recorded leads => ?_⟩
  · rw [madeFrom.updates, any_isPaginated_map]
  · rw [madeFrom.selection] at leads
    split at leads
    · cases leads
    · rw [selectionsIn_scopesBelow, contextOf, ← any_isPaginated_map, madeFrom.type]
      exact (Option.some.inj leads).symm

theorem exists_head_of_isBuiltBy
    (built : level.IsBuiltBy builder)
    (found : level.recorded.entryAt? place = some entry) :
    ∃ depth name, headName? (level.group builder.schema place) = some name ∧
      entry.updates = builder.updates (contextOf level.trail)
        ((level.group builder.schema place).any (·.isPaginated)) name ∧
      ∀ recorded, entry.selection = some recorded →
        recorded = builder.levels depth entry.type
          (selectionsIn (scopesBelow builder.schema (level.group builder.schema place)))
          (contextOf (level.leading builder.schema place)) := by
  obtain ⟨_, same⟩ := built
  obtain ⟨depth, _, made⟩ := exists_field?_of_eq_levels same found
  exact ⟨depth, exists_head_of_field?_eq_some made⟩

/-- All levels under one that a builder made are made by it. -/
theorem isBuiltBy_of_opens
    (built : root.IsBuiltBy builder)
    (opens : Opens builder.schema root level) :
    level.IsBuiltBy builder := by
  induction opens with
  | root => exact built
  | inner _ found leads inductionHypothesis =>
      obtain ⟨depth, _, _, _, isBuilt⟩ := exists_head_of_isBuiltBy inductionHypothesis found
      exact ⟨depth, isBuilt _ leads⟩

end OpenLevel

/-! ## Hints -/

section Contexts

variable {trail : List (List Site)}

/-- Right under a paginated field lies the level of its connection. -/
theorem exists_of_contextOf_eq_connection
    (context : contextOf trail = .connection) :
    ∃ connection outer, trail = connection :: outer ∧
      ∃ site ∈ connection, site.isPaginated = true := by
  cases trail with
  | nil => cases context
  | cons group outer =>
      refine ⟨group, outer, rfl, ?_⟩
      rw [contextOf] at context
      split at context
      · cases context
      · rw [MetadataBuilder.contextBelow] at context
        split at context
        · next marked => exact List.any_eq_true.mp marked
        · split at context <;> cases context

/-- Under the page info of a connection that is not paginated itself lies the level of the page
info. -/
theorem exists_of_contextOf_eq_pageInfo
    (context : contextOf trail = .pageInfo) :
    ∃ info connection outer, trail = info :: connection :: outer ∧
      headName? info = some Augmentation.pageInfo ∧
      (∀ other ∈ info, other.isPaginated = false) ∧
      ∃ site ∈ connection, site.isPaginated = true := by
  cases trail with
  | nil => cases context
  | cons info outer =>
      rw [contextOf] at context
      split at context
      · cases context
      next name called =>
      rw [MetadataBuilder.contextBelow] at context
      split at context
      · cases context
      next unmarked =>
      split at context
      · next inConnection =>
          obtain ⟨connection, behind, rfl, marked⟩ :=
            exists_of_contextOf_eq_connection inConnection.1
          refine ⟨info, connection, behind, rfl, ?_, ?_, marked⟩
          · rw [called, inConnection.2]
          · simpa using unmarked
      · cases context

end Contexts

/-- Hints are those of the builder, given to a paginated field, to the edges of a connection or in
its page info. -/
theorem MetadataBuilder.updates_of_ne_nil {builder : MetadataBuilder} {context : LevelContext}
    {paginated : Bool} {name : Name}
    (hinted : builder.updates context paginated name ≠ []) :
    builder.updates context paginated name = builder.hints ∧
      (paginated = true ∨ (context = .connection ∧ name = Augmentation.edges) ∨
        context = .pageInfo) := by
  unfold updates at hinted ⊢
  split at hinted
  · exact absurd rfl hinted
  · split at hinted
    · next isPaginated => exact ⟨if_pos isPaginated, .inl isPaginated⟩
    · exact absurd rfl hinted
  · split at hinted
    · next placed => exact ⟨if_pos placed, .inr placed.symm⟩
    · exact absurd rfl hinted

namespace OpenLevel

variable {builder : MetadataBuilder} {level : OpenLevel} {place : EntryPlace}
  {entry : FieldMetadata}

/-- An entry that has hints has those of the builder, and belongs to some paginated field. -/
theorem updates_of_ne_nil
    (built : level.IsBuiltBy builder)
    (found : level.recorded.entryAt? place = some entry)
    (hinted : entry.updates ≠ []) :
    entry.updates = builder.hints ∧
      ∃ site, BelongsTo (level.leading builder.schema place) site := by
  obtain ⟨_, name, called, updates, _⟩ := exists_head_of_isBuiltBy built found
  rw [updates] at hinted ⊢
  obtain ⟨areHints, isPaginated | ⟨inConnection, isEdges⟩ | inPageInfo⟩ :=
    MetadataBuilder.updates_of_ne_nil hinted
  · obtain ⟨site, member, marked⟩ := List.any_eq_true.mp isPaginated
    exact ⟨areHints, site, .itself member marked⟩
  · obtain ⟨connection, outer, isTrail, site, member, marked⟩ :=
      exists_of_contextOf_eq_connection inConnection
    refine ⟨areHints, site, ?_⟩
    rw [leading, isTrail]
    exact .edges (isEdges ▸ called) member marked
  · obtain ⟨info, connection, outer, isTrail, isInfo, unmarked, site, member, marked⟩ :=
      exists_of_contextOf_eq_pageInfo inPageInfo
    refine ⟨areHints, site, ?_⟩
    rw [leading, isTrail]
    exact .pageInfo isInfo unmarked member marked

end OpenLevel

end QueryPaging
