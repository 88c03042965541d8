import QueryPaging.Proofs.CacheKeys
import QueryPaging.Proofs.Consistency
import QueryPaging.Proofs.Hinting

/-!
# Where hints are given

Which entries of a document's metadata have hints can be told from the metadata alone, by the cache
keys of an entry and of the two that lead to it.

- `JoinsPages`: the entries that pages are joined at.
- `OpenLevel.LeadsTo`: the levels of a document with the entries that lead to them.
- `OpenLevel.isHinted_of_leadsTo`: hints are given where pages are joined, and nowhere else.
-/

namespace QueryPaging

/-- Whether pages are joined at an entry, given with those that lead to it, the innermost first: at
the list itself, or at the edges or in the page info of a connection. -/
inductive JoinsPages : PagingMethod → List FieldMetadata → Prop where
  | list {entry : FieldMetadata} {outer : List FieldMetadata}
      (marked : isPageKey entry.keyRaw = true) :
      JoinsPages .offset (entry :: outer)
  | edges {entry connection : FieldMetadata} {outer : List FieldMetadata}
      (called : keyName entry.keyRaw = Augmentation.edges.text)
      (marked : isPageKey connection.keyRaw = true) :
      JoinsPages .cursor (entry :: connection :: outer)
  | pageInfo {entry info connection : FieldMetadata} {outer : List FieldMetadata}
      (called : keyName info.keyRaw = Augmentation.pageInfo.text)
      (unmarked : isPageKey info.keyRaw = false)
      (marked : isPageKey connection.keyRaw = true) :
      JoinsPages .cursor (entry :: info :: connection :: outer)

/-! ## Contexts -/

/-- The context of the level below some entries, as their cache keys tell it. -/
def contextAlong : List FieldMetadata → LevelContext
  | [] => .plain
  | entry :: outer =>
      if isPageKey entry.keyRaw then .connection
      else if contextAlong outer = .connection ∧
        keyName entry.keyRaw = Augmentation.pageInfo.text then .pageInfo
      else .plain

theorem contextAlong_eq_connection_iff {entries : List FieldMetadata} :
    contextAlong entries = .connection ↔
      ∃ connection outer, entries = connection :: outer ∧ isPageKey connection.keyRaw = true := by
  cases entries with
  | nil =>
      refine iff_of_false (by decide) ?_
      rintro ⟨connection, outer, same, _⟩
      cases same
  | cons entry outer =>
      simp only [List.cons.injEq]
      rw [contextAlong]
      split
      · next marked => exact iff_of_true rfl ⟨entry, outer, ⟨rfl, rfl⟩, marked⟩
      · next unmarked =>
          refine iff_of_false ?_ ?_
          · split <;> decide
          · rintro ⟨connection, behind, ⟨rfl, rfl⟩, marked⟩
            exact unmarked marked

theorem contextAlong_eq_pageInfo_iff {entries : List FieldMetadata} :
    contextAlong entries = .pageInfo ↔
      ∃ info connection outer, entries = info :: connection :: outer ∧
        keyName info.keyRaw = Augmentation.pageInfo.text ∧ isPageKey info.keyRaw = false ∧
        isPageKey connection.keyRaw = true := by
  constructor
  · intro inPageInfo
    cases entries with
    | nil => cases inPageInfo
    | cons info outer =>
        rw [contextAlong] at inPageInfo
        split at inPageInfo
        · cases inPageInfo
        next unmarked =>
        split at inPageInfo
        · next inConnection =>
            obtain ⟨connection, behind, rfl, marked⟩ :=
              contextAlong_eq_connection_iff.mp inConnection.1
            exact ⟨info, connection, behind, rfl, inConnection.2, by simpa using unmarked, marked⟩
        · cases inPageInfo
  · rintro ⟨info, connection, outer, rfl, called, unmarked, marked⟩
    have inConnection : contextAlong (connection :: outer) = .connection :=
      contextAlong_eq_connection_iff.mpr ⟨connection, outer, rfl, marked⟩
    rw [contextAlong, unmarked, if_neg Bool.false_ne_true, if_pos ⟨inConnection, called⟩]

/-- Where the builder gives hints, told by the cache keys of an entry and those that lead to it. -/
theorem joinsPages_iff {method : PagingMethod} {entry : FieldMetadata}
    {outer : List FieldMetadata} :
    JoinsPages method (entry :: outer) ↔
      match method with
      | .offset => isPageKey entry.keyRaw = true
      | .cursor => contextAlong outer = .pageInfo ∨
          (contextAlong outer = .connection ∧
            keyName entry.keyRaw = Augmentation.edges.text) := by
  cases method with
  | offset =>
      constructor
      · rintro ⟨marked⟩
        exact marked
      · exact .list
  | cursor =>
      simp only
      rw [contextAlong_eq_connection_iff, contextAlong_eq_pageInfo_iff]
      constructor
      · intro joins
        cases joins with
        | @edges _ connection behind called marked =>
            exact .inr ⟨⟨connection, behind, rfl, marked⟩, called⟩
        | @pageInfo _ info connection behind called unmarked marked =>
            exact .inl ⟨info, connection, behind, rfl, called, unmarked, marked⟩
      · rintro (⟨info, connection, behind, rfl, called, unmarked, marked⟩ |
          ⟨⟨connection, behind, rfl, marked⟩, called⟩)
        · exact .pageInfo called unmarked marked
        · exact .edges called marked

/-! ## The walk -/

namespace OpenLevel

/-- The levels that are come to from one of them, each with the entries that lead to it, the
innermost first. -/
inductive LeadsTo (schema : Schema) (root : OpenLevel) : List FieldMetadata → OpenLevel → Prop where
  | root : LeadsTo schema root [] root
  | inner {outer : List FieldMetadata} {level : OpenLevel} {place : EntryPlace}
      {entry : FieldMetadata} {recorded : SelectionMetadata}
      (leads : LeadsTo schema root outer level)
      (found : level.recorded.entryAt? place = some entry)
      (selects : entry.selection = some recorded) :
      LeadsTo schema root (entry :: outer) (level.under schema place entry.type recorded)

variable {builder : MetadataBuilder} {root level : OpenLevel} {place : EntryPlace}
  {entry : FieldMetadata} {outer : List FieldMetadata}

theorem opens_of_leadsTo {schema : Schema}
    (leads : LeadsTo schema root outer level) :
    Opens schema root level := by
  induction leads with
  | root => exact .root
  | inner _ found selects inductionHypothesis => exact .inner inductionHypothesis found selects

/-- The cache key of an entry names the first field of its group, and tells whether any of the
fields is paginated. -/
theorem exists_keyName_of_isBuiltBy
    (built : level.IsBuiltBy builder)
    (found : level.recorded.entryAt? place = some entry) :
    ∃ name, headName? (level.group builder.schema place) = some name ∧
      keyName entry.keyRaw = name.text ∧
      isPageKey entry.keyRaw = (level.group builder.schema place).any (·.isPaginated) ∧
      entry.updates = builder.updates (contextOf level.trail) (isPageKey entry.keyRaw) name := by
  obtain ⟨depth, same⟩ := built
  obtain ⟨lower, _, made⟩ := exists_field?_of_eq_levels same found
  obtain ⟨first, others, type, isGroup, _, madeFrom⟩ :=
    MetadataBuilder.exists_of_field?_eq_some made
  obtain ⟨site, more, isSites, rfl, _⟩ := List.map_eq_cons_iff.mp isGroup
  have marks := isPageKey_keyRaw site.field
    (((level.group builder.schema place).map Site.toOccurrence).any Occurrence.isPaginated)
  rw [← madeFrom.keyRaw] at marks
  refine ⟨site.field.name, ?_, ?_, ?_, ?_⟩
  · rw [isSites]
    rfl
  · rw [madeFrom.keyRaw, keyName_keyRaw]
  · rw [marks, any_isPaginated_map]
  · rw [marks, madeFrom.updates]

/-- The entries that lead to a level put it in the same context as their groups. -/
theorem contextOf_trail_of_leadsTo
    (built : root.IsBuiltBy builder)
    (starts : root.trail = [])
    (leads : LeadsTo builder.schema root outer level) :
    contextOf level.trail = contextAlong outer := by
  induction leads with
  | root =>
      rw [starts]
      rfl
  | @inner outer level place entry recorded leads found selects inductionHypothesis =>
      obtain ⟨name, called, isName, marks, _⟩ :=
        exists_keyName_of_isBuiltBy (isBuiltBy_of_opens built (opens_of_leadsTo leads)) found
      -- The cache key tells the name and the mark that the builder read off the group.
      have sameName : keyName entry.keyRaw = Augmentation.pageInfo.text ↔
          name = Augmentation.pageInfo := by
        rw [isName]
        exact ⟨Name.eq_of_text_eq, congrArg Name.text⟩
      rw [under, leading, contextOf, called]
      simp only
      rw [MetadataBuilder.contextBelow, ← marks, inductionHypothesis, contextAlong]
      simp only [sameName]

/-- Hints of the builder are given where pages are joined, and nowhere else. -/
theorem updates_cases_of_leadsTo
    (built : root.IsBuiltBy builder)
    (starts : root.trail = [])
    (leads : LeadsTo builder.schema root outer level)
    (found : level.recorded.entryAt? place = some entry) :
    (∃ method, builder.method = some method ∧ JoinsPages method (entry :: outer)) ∧
        entry.updates = builder.hints ∨
      (¬ ∃ method, builder.method = some method ∧ JoinsPages method (entry :: outer)) ∧
        entry.updates = [] := by
  obtain ⟨name, _, isName, _, updates⟩ :=
    exists_keyName_of_isBuiltBy (isBuiltBy_of_opens built (opens_of_leadsTo leads)) found
  have sameName : keyName entry.keyRaw = Augmentation.edges.text ↔ name = Augmentation.edges := by
    rw [isName]
    exact ⟨Name.eq_of_text_eq, congrArg Name.text⟩
  rw [contextOf_trail_of_leadsTo built starts leads, MetadataBuilder.updates] at updates
  cases isMethod : builder.method with
  | none =>
      rw [isMethod] at updates
      refine .inr ⟨?_, updates⟩
      rintro ⟨method, absent, _⟩
      cases absent
  | some method =>
      simp only [Option.some.injEq, exists_eq_left', joinsPages_iff, sameName]
      rw [isMethod] at updates
      cases method with
      | offset =>
          simp only at updates ⊢
          split at updates
          · next marked => exact .inl ⟨marked, updates⟩
          · next unmarked => exact .inr ⟨unmarked, updates⟩
      | cursor =>
          simp only at updates ⊢
          split at updates
          · next joins => exact .inl ⟨joins, updates⟩
          · next apart => exact .inr ⟨apart, updates⟩

/-- What the hints of an entry are, and what its cache key says of the fields that it stands for. -/
structure IsHinted (schema : Schema) (refetch : Option RefetchSpec) (variants : Nat)
    (outer : List FieldMetadata) (level : OpenLevel) (place : EntryPlace) (entry : FieldMetadata) :
    Prop where
  placed : entry.updates ≠ [] ↔
    ∃ spec, refetch = some spec ∧ JoinsPages spec.method (entry :: outer)
  repeated : ∀ spec, refetch = some spec → entry.updates ≠ [] →
    entry.updates = (List.replicate variants (MergeHint.forSpec spec)).flatten
  /-- The entry is marked where any of the fields is. -/
  marked : isPageKey entry.keyRaw = (level.group schema place).any (·.isPaginated)
  called : ∃ name, headName? (level.group schema place) = some name ∧
    keyName entry.keyRaw = name.text

/-- Some hint is given for every direction. -/
theorem hints_ne_nil (schema : Schema) (spec : RefetchSpec) {variants : Nat}
    (someVariants : 0 < variants) :
    (builderOf schema (some spec) variants).hints ≠ [] := by
  have someHints : MergeHint.forSpec spec ≠ [] := by
    rw [MergeHint.forSpec]
    cases spec.method <;> cases spec.direction <;> exact List.cons_ne_nil _ _
  obtain ⟨fewer, rfl⟩ := Nat.exists_eq_succ_of_ne_zero (Nat.ne_of_gt someVariants)
  intro none
  exact someHints (List.append_eq_nil_iff.mp none).1

/-- At every level of the metadata of a document, the entries that have hints are those at which
pages are joined, and the hints are those of the direction, as often as there are variants. -/
theorem isHinted_of_leadsTo {schema : Schema} {definitions : List Definition} {rootType : String}
    {refetch : Option RefetchSpec} {variants : Nat}
    (someVariants : 0 < variants)
    (leads : LeadsTo schema (ofDocument schema definitions rootType refetch variants) outer level)
    (found : level.recorded.entryAt? place = some entry) :
    IsHinted schema refetch variants outer level place entry := by
  have built : (ofDocument schema definitions rootType refetch variants).IsBuiltBy
      (builderOf schema refetch variants) :=
    (isWhole_ofDocument schema definitions rootType refetch variants).isBuiltBy
  have hinted := updates_cases_of_leadsTo built rfl leads found
  have sameMethod : (∃ method, (builderOf schema refetch variants).method = some method ∧
      JoinsPages method (entry :: outer)) ↔
      ∃ spec, refetch = some spec ∧ JoinsPages spec.method (entry :: outer) := by
    rw [builderOf]
    simp only [Option.map_eq_some_iff]
    constructor
    · rintro ⟨_, ⟨spec, isSpec, rfl⟩, joins⟩
      exact ⟨spec, isSpec, joins⟩
    · rintro ⟨spec, isSpec, joins⟩
      exact ⟨_, ⟨spec, isSpec, rfl⟩, joins⟩
  rw [sameMethod] at hinted
  obtain ⟨name, called, isName, marks, _⟩ :=
    exists_keyName_of_isBuiltBy (isBuiltBy_of_opens built (opens_of_leadsTo leads)) found
  constructor
  case placed =>
    rcases hinted with ⟨joins, areHints⟩ | ⟨apart, none⟩
    · refine iff_of_true ?_ joins
      obtain ⟨spec, rfl, _⟩ := joins
      rw [areHints]
      exact hints_ne_nil schema spec someVariants
    · exact iff_of_false (fun some => some none) apart
  case repeated =>
    rintro spec rfl someHints
    rcases hinted with ⟨_, areHints⟩ | ⟨_, none⟩
    · exact areHints
    · exact absurd none someHints
  case marked => exact marks
  case called => exact ⟨name, called, isName⟩

end OpenLevel

/-! ## A list of users -/

namespace Feed

/-- A document that pages through the users. -/
def usersDefinitions : List Definition :=
  [.operation ⟨.query, none, [], [], [.field (pagedList users PagingArgument.forward)], none⟩]

def usersSpec : RefetchSpec where
  path := [users.text]
  method := .cursor
  pageSize := some 10
  embedded := false
  targetType := Sample.queryType
  paginated := true
  direction := .forward
  start := none

end Feed

/-- In the page info of the users, pages are joined twice. -/
theorem OpenLevel.isHinted_of_leadsTo_feed :
    ∃ outer level place entry, LeadsTo Feed.cursorSchema
        (ofDocument Feed.cursorSchema Feed.usersDefinitions Sample.queryType (some Feed.usersSpec) 2)
        outer level ∧
      level.recorded.entryAt? place = some entry ∧
      IsHinted Feed.cursorSchema (some Feed.usersSpec) 2 outer level place entry ∧
      JoinsPages .cursor (entry :: outer) ∧ entry.updates = [.append, .append] := by
  have found : ∃ connection below info inside entry,
      (ofDocument Feed.cursorSchema Feed.usersDefinitions Sample.queryType (some Feed.usersSpec)
        2).recorded.entryAt? ⟨none, "users"⟩ = some connection ∧
      connection.selection = some below ∧
      below.entryAt? ⟨none, "pageInfo"⟩ = some info ∧ info.selection = some inside ∧
      inside.entryAt? ⟨none, "hasNextPage"⟩ = some entry ∧ entry.updates = [.append, .append] :=
    ⟨_, _, _, _, _, rfl, rfl, rfl, rfl, rfl, rfl⟩
  obtain ⟨connection, below, info, inside, entry, isConnection, selects, isInfo, selectsInside,
    isEntry, areAppend⟩ := found
  have toConnection := LeadsTo.inner (@LeadsTo.root Feed.cursorSchema _) isConnection selects
  have toInfo := LeadsTo.inner toConnection isInfo selectsInside
  have hinted := isHinted_of_leadsTo (by decide) toInfo isEntry
  have someHints : entry.updates ≠ [] := by
    rw [areAppend]
    exact List.cons_ne_nil _ _
  obtain ⟨spec, isSpec, joins⟩ := hinted.placed.mp someHints
  obtain rfl := Option.some.inj isSpec
  exact ⟨_, _, _, _, toInfo, isEntry, hinted, joins, areAppend⟩

end QueryPaging
