import QueryPaging.Proofs.Passage
import QueryPaging.Proofs.Promoting
import QueryPaging.Proofs.Reaching
import QueryPaging.Proofs.Sites

/-!
# Marked fields on the way into metadata

What tells the mode of a marked field is its name, its arguments and the type that its selection set
is made on. None of it changes when spreads are replaced and levels are built, so every marked field
that a walk through metadata meets is one of the document that they were built from.

- `marksOf`: the marked fields of selections.
- `mem_marksOf_expand`: replacing spreads adds those of the fragments, and no others.
- `OpenLevel.mem_of_belongsTo`: a walk meets no others than those of its root.
-/

namespace QueryPaging

/-- A marked field by what tells its mode: the type that its selection set is made on, its name and
its arguments. -/
structure Marking where
  type : Option Name
  name : Name
  arguments : List Argument

namespace Marking

def ofField (type : Option Name) (field : Field) : Marking :=
  ⟨type, field.name, field.arguments⟩

/-- A field of a type with the name and the arguments of the mark. -/
def placed (marking : Marking) (type : Name) : PaginatedField :=
  ⟨marking.name, marking.name, marking.arguments, [], type, none, none, []⟩

/-- The mode that the marked field pages in, if it can be told. -/
def mode? (schema : Schema) (marking : Marking) : Option PagingMode :=
  marking.type.bind fun type => (PagingMode.detect schema (marking.placed type)).toOption

end Marking

def Site.marking (site : Site) : Marking :=
  .ofField site.type site.field

def MarkedField.marking (found : MarkedField) : Marking :=
  .ofField found.parentType found.field

/-- The mode does not depend on where a field stands and how large its pages are. -/
theorem PagingMode.detect_moved {schema : Schema} {field moved : PaginatedField} {mode : PagingMode}
    (detected : detect schema field = .ok mode)
    (sameName : moved.name = field.name)
    (sameArguments : moved.arguments = field.arguments)
    (sameParent : moved.parentType = field.parentType) :
    detect schema moved = .ok mode := by
  unfold detect at detected ⊢
  rw [sameName, sameArguments, sameParent]
  cases declared : schema.field? field.parentType field.name with
  | none => simp [declared] at detected
  | some definition =>
      simp only [declared, Pipeline.bind_eq_ok_iff, classify_eq_ok_iff, fitting_eq_ok_iff]
        at detected ⊢
      exact detected

/-- The mode of a paginated field is that of the mark it was read from. -/
theorem MarkedField.mode?_marking {schema : Schema} {found : MarkedField} {field : PaginatedField}
    {mode : PagingMode}
    (read : PaginatedField.ofMarked found = .ok field)
    (detected : PagingMode.detect schema field = .ok mode) :
    found.marking.mode? schema = some mode := by
  obtain ⟨pageSize, parentType, _, isParent, rfl⟩ := PaginatedField.ofMarked_eq_ok_iff.mp read
  have moved : PagingMode.detect schema (found.marking.placed parentType) = .ok mode :=
    PagingMode.detect_moved detected rfl rfl rfl
  have isType : found.marking.type = some parentType := isParent
  rw [Marking.mode?, isType, Option.bind_some, moved]
  rfl

/-! ## The marked fields of selections -/

mutual

/-- The marked fields of a selection that is made on a type, at any depth. -/
def Selection.marks (schema : Schema) (type : Option Name) : Selection → List Marking
  | .field ⟨_, name, arguments, directives, selections, _⟩ =>
      (if (PassDirective.findPaginate? directives).isSome then [⟨type, name, arguments⟩] else [])
        ++ marksOf schema (MarkedField.childType schema type name) selections
  | .spread _ => []
  | .inline ⟨condition, _, selections⟩ => marksOf schema (condition <|> type) selections

def marksOf (schema : Schema) (type : Option Name) : List Selection → List Marking
  | [] => []
  | selection :: others => selection.marks schema type ++ marksOf schema type others

end

section Marks

variable (schema : Schema) (type : Option Name)

@[simp]
theorem marksOf_nil :
    marksOf schema type [] = [] := by
  rw [marksOf]

theorem marksOf_cons (selection : Selection) (others : List Selection) :
    marksOf schema type (selection :: others) =
      selection.marks schema type ++ marksOf schema type others := by
  rw [marksOf]

theorem marks_field (field : Field) :
    Selection.marks schema type (.field field) =
      (if (PassDirective.findPaginate? field.directives).isSome then [Marking.ofField type field]
        else [])
        ++ marksOf schema (MarkedField.childType schema type field.name) field.selections := by
  cases field
  rw [Selection.marks]
  rfl

@[simp]
theorem marks_spread (spread : Spread) :
    Selection.marks schema type (.spread spread) = [] := by
  rw [Selection.marks]

theorem marks_inline (inline : InlineFragment) :
    Selection.marks schema type (.inline inline) =
      marksOf schema (inline.condition <|> type) inline.selections := by
  cases inline
  rw [Selection.marks]

theorem marksOf_append (selections later : List Selection) :
    marksOf schema type (selections ++ later) =
      marksOf schema type selections ++ marksOf schema type later := by
  induction selections with
  | nil => rw [marksOf_nil, List.nil_append, List.nil_append]
  | cons selection others inductionHypothesis =>
      rw [List.cons_append, marksOf_cons, marksOf_cons, inductionHypothesis, List.append_assoc]

/-- The search for marked fields meets just these. -/
theorem map_marking_inSelections (path : List Name) (indices : List Nat) (index : Nat)
    (selections : List Selection) :
    (MarkedField.inSelections schema type path indices index selections).map MarkedField.marking =
      marksOf schema type selections := by
  induction selections using selectionsInduction generalizing type path indices index with
  | nil => rw [MarkedField.inSelections_nil, marksOf_nil, List.map_nil]
  | field field others below behind =>
      rw [MarkedField.inSelections_cons, MarkedField.inSelection_field, List.map_append,
        List.map_append, below, behind, marksOf_cons, marks_field, MarkedField.ofField]
      cases PassDirective.findPaginate? field.directives <;> rfl
  | spread spread others behind =>
      rw [MarkedField.inSelections_cons, MarkedField.inSelection_spread, List.map_append, behind,
        marksOf_cons, marks_spread, List.map_nil]
  | inline inline others below behind =>
      rw [MarkedField.inSelections_cons, MarkedField.inSelection_inline, List.map_append, below,
        behind, marksOf_cons, marks_inline]

end Marks

/-! ## Replacing spreads -/

section Expansion

variable {schema : Schema} {marking : Marking}

/-- Replacing spreads adds the marked fields of what they are replaced by. -/
theorem mem_marksOf_expandAllWith {resolve : Name → List Selection} {type : Option Name}
    {selections : List Selection}
    (member : marking ∈ marksOf schema type (expandAllWith resolve selections)) :
    marking ∈ marksOf schema type selections ∨
      ∃ inner name, marking ∈ marksOf schema inner (resolve name) := by
  induction selections using selectionsInduction generalizing type with
  | nil =>
      rw [expandAllWith, marksOf_nil] at member
      cases member
  | field field others below behind =>
      obtain ⟨aliasName, name, arguments, directives, selections, span⟩ := field
      rw [expandAllWith, Selection.expandWith, List.singleton_append, marksOf_cons, marks_field,
        List.mem_append, List.mem_append] at member
      rw [marksOf_cons, marks_field, List.mem_append, List.mem_append]
      rcases member with (here | inside) | later
      · exact .inl (.inl (.inl here))
      · exact (below inside).imp_left fun known => .inl (.inr known)
      · exact (behind later).imp_left .inr
  | spread spread others behind =>
      obtain ⟨fragment, directives⟩ := spread
      rw [expandAllWith, Selection.expandWith, marksOf_append, List.mem_append] at member
      rw [marksOf_cons, marks_spread, List.nil_append]
      rcases member with replaced | later
      · exact .inr ⟨type, fragment, replaced⟩
      · exact behind later
  | inline inline others below behind =>
      obtain ⟨condition, directives, selections⟩ := inline
      rw [expandAllWith, Selection.expandWith, List.singleton_append, marksOf_cons, marks_inline,
        List.mem_append] at member
      rw [marksOf_cons, marks_inline, List.mem_append]
      rcases member with inside | later
      · exact (below inside).imp_left .inl
      · exact (behind later).imp_left .inr

/-- A spread is replaced by the marked fields of fragments, however deep they spread each other. -/
theorem exists_fragment_of_mem_resolve {index : FragmentIndex} {depth : Nat} {type : Option Name}
    {name : Name}
    (member : marking ∈ marksOf schema type (index.resolve depth name)) :
    ∃ known fragment, index.get? known = some fragment ∧
      marking ∈ marksOf schema (some fragment.condition) fragment.selections := by
  induction depth generalizing type name with
  | zero =>
      rw [FragmentIndex.resolve, marksOf_nil] at member
      cases member
  | succ depth inductionHypothesis =>
      rw [FragmentIndex.resolve] at member
      split at member
      · next fragment found =>
          rw [marksOf_cons, marksOf_nil, List.append_nil, marks_inline] at member
          rcases mem_marksOf_expandAllWith member with here | ⟨_, _, deeper⟩
          · exact ⟨name, fragment, found, here⟩
          · exact inductionHypothesis deeper
      · rw [marksOf_cons, marksOf_nil, List.append_nil, marks_spread] at member
        cases member

/-- The marked fields of expanded selections are their own and those of fragments. -/
theorem mem_marksOf_expand {index : FragmentIndex} {type : Option Name}
    {selections : List Selection}
    (member : marking ∈ marksOf schema type (index.expand selections)) :
    marking ∈ marksOf schema type selections ∨
      ∃ known fragment, index.get? known = some fragment ∧
        marking ∈ marksOf schema (some fragment.condition) fragment.selections :=
  (mem_marksOf_expandAllWith member).imp_right fun ⟨_, _, replaced⟩ =>
    exists_fragment_of_mem_resolve replaced

end Expansion

/-! ## Walking through metadata -/

def marksIn (schema : Schema) (scopes : List Scope) : List Marking :=
  scopes.flatMap fun scope => marksOf schema scope.type scope.selections

section Sites

variable {schema : Schema} {site : Site} {marking : Marking}

/-- The mark on a site, and those below it, are marks of the selections. -/
theorem mem_marksOf_of_mem_sitesOf {condition type : Option Name} {selections : List Selection}
    (member : site ∈ sitesOf condition type selections)
    (marked : marking ∈ Selection.marks schema site.type (.field site.field)) :
    marking ∈ marksOf schema type selections := by
  induction selections using selectionsInduction generalizing condition type with
  | nil =>
      rw [sitesOf] at member
      cases member
  | field field others _ behind =>
      rw [sitesOf, Selection.sites, List.mem_append, List.mem_singleton] at member
      rw [marksOf_cons, List.mem_append]
      rcases member with rfl | later
      · exact .inl marked
      · exact .inr (behind later)
  | spread spread others behind =>
      rw [sitesOf, Selection.sites, List.nil_append] at member
      rw [marksOf_cons, marks_spread, List.nil_append]
      exact behind member
  | inline inline others below behind =>
      obtain ⟨inner, directives, selections⟩ := inline
      rw [sitesOf, Selection.sites, List.mem_append] at member
      rw [marksOf_cons, marks_inline, List.mem_append]
      exact member.imp below behind

theorem mem_marksIn_of_mem_sitesIn {scopes : List Scope}
    (member : site ∈ sitesIn scopes)
    (marked : marking ∈ Selection.marks schema site.type (.field site.field)) :
    marking ∈ marksIn schema scopes := by
  obtain ⟨scope, isScope, inside⟩ := List.mem_flatMap.mp member
  exact List.mem_flatMap.mpr ⟨scope, isScope, mem_marksOf_of_mem_sitesOf inside marked⟩

theorem marking_mem_marks
    (marked : site.isPaginated = true) :
    site.marking ∈ Selection.marks schema site.type (.field site.field) := by
  have isMarked : (PassDirective.findPaginate? site.field.directives).isSome = true := marked
  rw [marks_field, if_pos isMarked]
  exact List.mem_append_left _ (List.mem_singleton_self _)

end Sites

namespace OpenLevel

variable {schema : Schema} {root level : OpenLevel} {site : Site} {place : EntryPlace}

/-- All marked fields of a level and of the groups that lead to it are among some marks. -/
structure IsMarkedBy (schema : Schema) (marks : List Marking) (level : OpenLevel) : Prop where
  scopes : ∀ marking ∈ marksIn schema level.scopes, marking ∈ marks
  trail : ∀ group ∈ level.trail, ∀ site ∈ group, site.isPaginated = true → site.marking ∈ marks

/-- The group of an entry is marked by the marks of its level. -/
theorem IsMarkedBy.leading {marks : List Marking}
    (marked : level.IsMarkedBy schema marks)
    (place : EntryPlace) :
    ∀ group ∈ level.leading schema place, ∀ site ∈ group,
      site.isPaginated = true → site.marking ∈ marks := by
  intro group member site among isPaginated
  rcases List.mem_cons.mp member with rfl | outer
  · exact marked.scopes _
      (mem_marksIn_of_mem_sitesIn (mem_of_mem_groupAt among) (marking_mem_marks isPaginated))
  · exact marked.trail group outer site among isPaginated

theorem isMarkedBy_of_opens {marks : List Marking}
    (marked : root.IsMarkedBy schema marks)
    (opens : Opens schema root level) :
    level.IsMarkedBy schema marks := by
  induction opens with
  | root => exact marked
  | @inner level place entry recorded _ _ _ inductionHypothesis =>
      refine ⟨fun marking member => ?_, inductionHypothesis.leading place⟩
      obtain ⟨scope, isScope, inside⟩ := List.mem_flatMap.mp member
      obtain ⟨site, among, rfl⟩ := List.mem_map.mp isScope
      refine inductionHypothesis.scopes marking
        (mem_marksIn_of_mem_sitesIn (mem_of_mem_groupAt among) ?_)
      rw [marks_field]
      exact List.mem_append_right _ inside

/-- The paginated fields that an entry belongs to are among the marks of the root. -/
theorem mem_of_belongsTo {marks : List Marking}
    (marked : root.IsMarkedBy schema marks)
    (opens : Opens schema root level)
    (belongs : BelongsTo (level.leading schema place) site) :
    site.marking ∈ marks := by
  have among := (isMarkedBy_of_opens marked opens).leading place
  generalize level.leading schema place = trail at among belongs
  cases belongs with
  | itself member isPaginated => exact among _ List.mem_cons_self site member isPaginated
  | edges _ member isPaginated =>
      exact among _ (List.mem_cons_of_mem _ List.mem_cons_self) site member isPaginated
  | pageInfo _ _ member isPaginated =>
      exact among _ (List.mem_cons_of_mem _ (List.mem_cons_of_mem _ List.mem_cons_self)) site
        member isPaginated

end OpenLevel

end QueryPaging
