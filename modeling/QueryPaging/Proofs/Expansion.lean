import Mathlib.Data.List.Perm.Subperm
import QueryPaging.Metadata.Building
import QueryPaging.Proofs.Selections

/-!
# Collecting fields and replacing spreads

Which fields of a selection set an object of some type answers, told twice: by following spreads
where they stand, and by looking at the selection set in which they have been replaced. Where no
fragment reaches itself, both say the same.

- `FragmentIndex.expand_cons_found`: a spread is replaced by the whole fragment it names.
- `mem_gatheredOf_expand_iff`: replacing spreads changes no field that an object answers.
-/

namespace QueryPaging

/-- The fields that an object of some type answers: those of the selection set, and those of the
fragments whose conditions it satisfies. -/
inductive Collects (schema : Schema) (index : FragmentIndex) (object : Name) :
    List Selection → Field → Prop where
  | field {selections : List Selection} {field : Field}
      (member : .field field ∈ selections) :
      Collects schema index object selections field
  | spread {selections : List Selection} {spread : Spread} {fragment : Fragment} {field : Field}
      (member : .spread spread ∈ selections)
      (found : index.get? spread.fragment = some fragment)
      (satisfied : object ∈ schema.possibleTypes fragment.condition)
      (collected : Collects schema index object fragment.selections field) :
      Collects schema index object selections field
  | inline {selections : List Selection} {inline : InlineFragment} {field : Field}
      (member : .inline inline ∈ selections)
      (satisfied : ∀ condition, inline.condition = some condition →
        object ∈ schema.possibleTypes condition)
      (collected : Collects schema index object inline.selections field) :
      Collects schema index object selections field

theorem Collects.mono {schema : Schema} {index : FragmentIndex} {object : Name}
    {selections larger : List Selection} {field : Field}
    (collected : Collects schema index object selections field)
    (within : selections ⊆ larger) :
    Collects schema index object larger field := by
  cases collected with
  | field member => exact .field (within member)
  | spread member found satisfied below => exact .spread (within member) found satisfied below
  | inline member satisfied below => exact .inline (within member) satisfied below

mutual

/-- The fields that an object of some type answers, where spreads have been replaced. -/
def Selection.gathered (schema : Schema) (object : Name) : Selection → List Field
  | .field field => [field]
  | .spread _ => []
  | .inline ⟨condition, _, selections⟩ =>
      if condition.all fun condition => (schema.possibleTypes condition).contains object then
        gatheredOf schema object selections
      else
        []

def gatheredOf (schema : Schema) (object : Name) : List Selection → List Field
  | [] => []
  | selection :: others =>
      selection.gathered schema object ++ gatheredOf schema object others

end

theorem mem_gathered_inline_iff {schema : Schema} {object : Name} {inline : InlineFragment}
    {field : Field} :
    field ∈ (Selection.inline inline).gathered schema object ↔
      (∀ condition, inline.condition = some condition →
          object ∈ schema.possibleTypes condition) ∧
        field ∈ gatheredOf schema object inline.selections := by
  obtain ⟨condition, directives, selections⟩ := inline
  rw [Selection.gathered]
  cases condition with
  | none => simp
  | some condition =>
      by_cases satisfied : object ∈ schema.possibleTypes condition <;> simp [satisfied]

theorem mem_gatheredOf_cons_iff {schema : Schema} {object : Name} {selection : Selection}
    {others : List Selection} {field : Field} :
    field ∈ gatheredOf schema object (selection :: others) ↔
      field ∈ selection.gathered schema object ∨ field ∈ gatheredOf schema object others := by
  rw [gatheredOf, List.mem_append]

/-! ## Spreads that reach no end -/

/-- Two ways to resolve names that agree on all names that are spread. -/
theorem expandAllWith_congr {left right : Name → List Selection} {selections : List Selection}
    (agree : ∀ name ∈ spreadNamesOf selections, left name = right name) :
    expandAllWith left selections = expandAllWith right selections := by
  induction selections using selectionsInduction with
  | nil => rw [expandAllWith, expandAllWith]
  | field field others below behind =>
      obtain ⟨aliasName, name, arguments, directives, selections, span⟩ := field
      have inside := below fun name member =>
        agree name (by rw [spreadNamesOf]; exact List.mem_append_left _ member)
      have after := behind fun name member =>
        agree name (by rw [spreadNamesOf]; exact List.mem_append_right _ member)
      rw [expandAllWith, expandAllWith, Selection.expandWith, Selection.expandWith, inside, after]
  | spread spread others behind =>
      obtain ⟨fragment, directives⟩ := spread
      have here := agree fragment (by rw [spreadNamesOf, Selection.spreadNames]; simp)
      have after := behind fun name member =>
        agree name (by rw [spreadNamesOf]; exact List.mem_append_right _ member)
      rw [expandAllWith, expandAllWith, Selection.expandWith, Selection.expandWith, here, after]
  | inline inline others below behind =>
      obtain ⟨condition, directives, selections⟩ := inline
      have inside := below fun name member =>
        agree name (by rw [spreadNamesOf]; exact List.mem_append_left _ member)
      have after := behind fun name member =>
        agree name (by rw [spreadNamesOf]; exact List.mem_append_right _ member)
      rw [expandAllWith, expandAllWith, Selection.expandWith, Selection.expandWith, inside, after]

namespace FragmentIndex

variable (index : FragmentIndex)

/-- Whether a fragment spreads another. -/
def Spreads (start name : Name) : Prop :=
  ∃ fragment, index.get? start = some fragment ∧ name ∈ spreadNamesOf fragment.selections

/-- Whether no fragment reaches itself. -/
def IsAcyclic : Prop :=
  ∀ name, ¬ Relation.TransGen index.Spreads name name

variable {index}

theorem mem_keys_of_get?_eq_some {name : Name} {fragment : Fragment}
    (found : index.get? name = some fragment) :
    name ∈ Table.keys index := by
  refine Classical.not_not.mp fun absent => ?_
  rw [Table.get?_eq_none_iff.mpr absent] at found
  cases found

theorem resolve_of_found {depth : Nat} {name : Name} {fragment : Fragment}
    (found : index.get? name = some fragment) :
    index.resolve (depth + 1) name =
      [.inline ⟨some fragment.condition, [],
        expandAllWith (index.resolve depth) fragment.selections⟩] := by
  rw [resolve, found]

theorem resolve_of_missing {depth : Nat} {name : Name}
    (missing : index.get? name = none) :
    index.resolve (depth + 1) name = [.spread ⟨name, []⟩] := by
  rw [resolve, missing]

/-- A depth that exceeds the fragments left to reach is as good as the next. -/
theorem resolve_stable (acyclic : index.IsAcyclic) {depth : Nat} {seen : List Name} {name : Name}
    (chain : ∀ earlier ∈ seen, Relation.TransGen index.Spreads earlier name)
    (distinct : seen.Nodup)
    (known : seen ⊆ Table.keys index)
    (enough : index.length < depth + seen.length) :
    index.resolve depth name = index.resolve (depth + 1) name := by
  induction depth generalizing seen name with
  | zero =>
      have few := (List.subperm_of_subset distinct known).length_le
      rw [Table.keys, List.length_map] at few
      omega
  | succ depth inductionHypothesis =>
      cases found : index.get? name with
      | none => rw [resolve_of_missing found, resolve_of_missing found]
      | some fragment =>
          -- The fragment is a new one, as none before it is reached again.
          have fresh : name ∉ seen := fun member => acyclic name (chain name member)
          have next : ∀ later ∈ spreadNamesOf fragment.selections,
              index.resolve depth later = index.resolve (depth + 1) later := by
            intro later member
            have step : index.Spreads name later := ⟨fragment, found, member⟩
            refine @inductionHypothesis (name :: seen) later ?_ ?_ ?_ ?_
            · intro earlier among
              rcases List.mem_cons.mp among with rfl | before
              · exact .single step
              · exact .tail (chain earlier before) step
            · exact List.nodup_cons.mpr ⟨fresh, distinct⟩
            · exact List.cons_subset.mpr ⟨mem_keys_of_get?_eq_some found, known⟩
            · rw [List.length_cons]
              omega
          rw [resolve_of_found found, resolve_of_found found, expandAllWith_congr next]

/-! ## Replacing spreads -/

variable (index)

/-- A field in whose selections spreads are replaced. -/
def expandField (field : Field) : Field :=
  { field with selections := index.expand field.selections }

@[simp]
theorem expand_nil :
    index.expand [] = [] := by
  rw [expand, expandAllWith]

theorem expand_cons_field (field : Field) (others : List Selection) :
    index.expand (.field field :: others) =
      .field (index.expandField field) :: index.expand others := by
  obtain ⟨aliasName, name, arguments, directives, selections, span⟩ := field
  rw [expand, expandAllWith, Selection.expandWith]
  rfl

theorem expand_cons_inline (inline : InlineFragment) (others : List Selection) :
    index.expand (.inline inline :: others) =
      .inline { inline with selections := index.expand inline.selections }
        :: index.expand others := by
  obtain ⟨condition, directives, selections⟩ := inline
  rw [expand, expandAllWith, Selection.expandWith]
  rfl

theorem expand_cons_spread (spread : Spread) (others : List Selection) :
    index.expand (.spread spread :: others) =
      index.resolve (index.length + 1) spread.fragment ++ index.expand others := by
  obtain ⟨fragment, directives⟩ := spread
  rw [expand, expandAllWith, Selection.expandWith]
  rfl

variable {index}

/-- The spread of a known fragment becomes an inline fragment in which all spreads are replaced. -/
theorem expand_cons_found (acyclic : index.IsAcyclic) {spread : Spread} {fragment : Fragment}
    (found : index.get? spread.fragment = some fragment) (others : List Selection) :
    index.expand (.spread spread :: others) =
      .inline ⟨some fragment.condition, [], index.expand fragment.selections⟩
        :: index.expand others := by
  have same : expandAllWith (index.resolve index.length) fragment.selections =
      index.expand fragment.selections := by
    refine expandAllWith_congr fun name member => ?_
    refine @resolve_stable index acyclic index.length [spread.fragment] name ?_ ?_ ?_ ?_
    · intro earlier among
      rw [List.mem_singleton.mp among]
      exact .single ⟨fragment, found, member⟩
    · exact by simp
    · exact List.cons_subset.mpr ⟨mem_keys_of_get?_eq_some found, List.nil_subset _⟩
    · rw [List.length_singleton]
      omega
  rw [expand_cons_spread, resolve_of_found found, same, List.singleton_append]

theorem expand_cons_missing {spread : Spread}
    (missing : index.get? spread.fragment = none) (others : List Selection) :
    index.expand (.spread spread :: others) =
      .spread ⟨spread.fragment, []⟩ :: index.expand others := by
  rw [expand_cons_spread, resolve_of_missing missing, List.singleton_append]

/-- What stands in place of a selection once spreads are replaced. -/
inductive Replaces (index : FragmentIndex) : Selection → Selection → Prop where
  | field (field : Field) :
      Replaces index (.field field) (.field (index.expandField field))
  | found {spread : Spread} {fragment : Fragment}
      (found : index.get? spread.fragment = some fragment) :
      Replaces index (.spread spread)
        (.inline ⟨some fragment.condition, [], index.expand fragment.selections⟩)
  | missing (spread : Spread) :
      Replaces index (.spread spread) (.spread ⟨spread.fragment, []⟩)
  | inline (inline : InlineFragment) :
      Replaces index (.inline inline)
        (.inline { inline with selections := index.expand inline.selections })

theorem exists_replaces (acyclic : index.IsAcyclic) (selection : Selection) :
    ∃ replaced, Replaces index selection replaced ∧
      ∀ others, index.expand (selection :: others) = replaced :: index.expand others := by
  cases selection with
  | field field => exact ⟨_, .field field, index.expand_cons_field field⟩
  | spread spread =>
      cases found : index.get? spread.fragment with
      | none => exact ⟨_, .missing spread, expand_cons_missing found⟩
      | some fragment => exact ⟨_, .found found, expand_cons_found acyclic found⟩
  | inline inline => exact ⟨_, .inline inline, index.expand_cons_inline inline⟩

/-- What replaced the first selection, and what replaced the others. -/
theorem exists_of_expand_eq_cons (acyclic : index.IsAcyclic) {selections others : List Selection}
    {replaced : Selection}
    (isExpanded : index.expand selections = replaced :: others) :
    ∃ first rest, selections = first :: rest ∧ Replaces index first replaced ∧
      index.expand rest = others := by
  cases selections with
  | nil =>
      rw [expand_nil] at isExpanded
      cases isExpanded
  | cons first rest =>
      obtain ⟨other, replaces, whole⟩ := exists_replaces acyclic first
      obtain ⟨rfl, sameRest⟩ := List.cons.inj ((whole rest).symm.trans isExpanded)
      exact ⟨first, rest, rfl, replaces, sameRest⟩

theorem exists_mem_expand (acyclic : index.IsAcyclic) {selection : Selection}
    {selections : List Selection}
    (member : selection ∈ selections) :
    ∃ replaced ∈ index.expand selections, index.expand [selection] = [replaced] := by
  induction selections with
  | nil => cases member
  | cons first others inductionHypothesis =>
      obtain ⟨replaced, _, whole⟩ := exists_replaces acyclic first
      rw [whole]
      rcases List.mem_cons.mp member with rfl | later
      · refine ⟨replaced, List.mem_cons_self, ?_⟩
        rw [whole, expand_nil]
      · obtain ⟨other, among, single⟩ := inductionHypothesis later
        exact ⟨other, List.mem_cons_of_mem replaced among, single⟩

end FragmentIndex

/-! ## Both ways of collecting -/

section Collecting

variable {schema : Schema} {index : FragmentIndex} {object : Name}

theorem mem_gatheredOf_of_mem {selection : Selection} {selections : List Selection}
    {field : Field}
    (member : selection ∈ selections)
    (gathered : field ∈ selection.gathered schema object) :
    field ∈ gatheredOf schema object selections := by
  induction selections with
  | nil => cases member
  | cons first others inductionHypothesis =>
      rw [mem_gatheredOf_cons_iff]
      rcases List.mem_cons.mp member with rfl | later
      · exact Or.inl gathered
      · exact Or.inr (inductionHypothesis later)

theorem mem_gatheredOf_expand_of_mem (acyclic : index.IsAcyclic) {selection : Selection}
    {selections : List Selection} {field : Field}
    (member : selection ∈ selections)
    (gathered : field ∈ gatheredOf schema object (index.expand [selection])) :
    field ∈ gatheredOf schema object (index.expand selections) := by
  obtain ⟨replaced, among, single⟩ := FragmentIndex.exists_mem_expand acyclic member
  rw [single, mem_gatheredOf_cons_iff] at gathered
  refine mem_gatheredOf_of_mem among (gathered.resolve_right fun nothing => ?_)
  rw [gatheredOf] at nothing
  cases nothing

theorem mem_gatheredOf_expand_of_collects (acyclic : index.IsAcyclic)
    {selections : List Selection} {field : Field}
    (collected : Collects schema index object selections field) :
    index.expandField field ∈ gatheredOf schema object (index.expand selections) := by
  induction collected with
  | @field selections field member =>
      refine mem_gatheredOf_expand_of_mem acyclic member ?_
      rw [index.expand_cons_field, mem_gatheredOf_cons_iff, Selection.gathered]
      exact Or.inl (List.mem_singleton_self _)
  | @spread selections spread fragment field member found satisfied _ inductionHypothesis =>
      refine mem_gatheredOf_expand_of_mem acyclic member ?_
      rw [FragmentIndex.expand_cons_found acyclic found, mem_gatheredOf_cons_iff,
        mem_gathered_inline_iff]
      refine Or.inl ⟨?_, inductionHypothesis⟩
      intro condition same
      cases same
      exact satisfied
  | @inline selections inline field member satisfied _ inductionHypothesis =>
      refine mem_gatheredOf_expand_of_mem acyclic member ?_
      rw [index.expand_cons_inline, mem_gatheredOf_cons_iff, mem_gathered_inline_iff]
      exact Or.inl ⟨satisfied, inductionHypothesis⟩

/-- What is said of the selection sets with spreads replaced, by what they were made of. -/
theorem exists_collects_of_mem_gatheredOf (acyclic : index.IsAcyclic)
    {expanded selections : List Selection} {field : Field}
    (isExpanded : index.expand selections = expanded)
    (gathered : field ∈ gatheredOf schema object expanded) :
    ∃ source, Collects schema index object selections source ∧
      field = index.expandField source := by
  induction expanded using selectionsInduction generalizing selections with
  | nil =>
      rw [gatheredOf] at gathered
      cases gathered
  | field body others below behind =>
      obtain ⟨first, rest, rfl, replaces, sameRest⟩ :=
        FragmentIndex.exists_of_expand_eq_cons acyclic isExpanded
      rcases mem_gatheredOf_cons_iff.mp gathered with here | later
      · cases replaces with
        | field source =>
            rw [Selection.gathered, List.mem_singleton] at here
            exact ⟨source, .field List.mem_cons_self, here⟩
      · obtain ⟨source, collected, same⟩ := behind sameRest later
        exact ⟨source, collected.mono (List.subset_cons_self first rest), same⟩
  | spread body others behind =>
      obtain ⟨first, rest, rfl, replaces, sameRest⟩ :=
        FragmentIndex.exists_of_expand_eq_cons acyclic isExpanded
      rcases mem_gatheredOf_cons_iff.mp gathered with here | later
      · rw [Selection.gathered] at here
        cases here
      · obtain ⟨source, collected, same⟩ := behind sameRest later
        exact ⟨source, collected.mono (List.subset_cons_self first rest), same⟩
  | inline body others below behind =>
      obtain ⟨first, rest, rfl, replaces, sameRest⟩ :=
        FragmentIndex.exists_of_expand_eq_cons acyclic isExpanded
      rcases mem_gatheredOf_cons_iff.mp gathered with here | later
      · obtain ⟨satisfied, inside⟩ := mem_gathered_inline_iff.mp here
        cases replaces with
        | found found =>
            obtain ⟨source, collected, same⟩ := below rfl inside
            exact ⟨source, .spread List.mem_cons_self found (satisfied _ rfl) collected, same⟩
        | inline inline =>
            obtain ⟨source, collected, same⟩ := below rfl inside
            exact ⟨source, .inline List.mem_cons_self satisfied collected, same⟩
      · obtain ⟨source, collected, same⟩ := behind sameRest later
        exact ⟨source, collected.mono (List.subset_cons_self first rest), same⟩

/-- Replacing spreads changes no field that an object answers. -/
theorem mem_gatheredOf_expand_iff (acyclic : index.IsAcyclic) {selections : List Selection}
    {field : Field} :
    field ∈ gatheredOf schema object (index.expand selections) ↔
      ∃ source, Collects schema index object selections source ∧
        field = index.expandField source := by
  constructor
  · exact exists_collects_of_mem_gatheredOf acyclic rfl
  · rintro ⟨source, collected, rfl⟩
    exact mem_gatheredOf_expand_of_collects acyclic collected

end Collecting

end QueryPaging
