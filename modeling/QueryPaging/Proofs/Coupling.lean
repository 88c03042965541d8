import QueryPaging.Proofs.Faithfulness

/-!
# Omitted arguments and variables of others

An argument that the author omits is bound to the variable of its own name. If the author passes
that very variable for another argument, the two are coupled, and the next page cannot be fetched
without changing what the author wired.

- `Promotion.isUncoupled_iff`: when no omitted argument shares the variable of another.
- `Promotion.not_forall_isUncoupled`: promotion does not see to it.
-/

namespace QueryPaging.Promotion

/-- That no argument which the author omits is bound to a variable that the author passes for a
different paging argument. -/
def IsUncoupled (field : PaginatedField) (promotion : Promotion) : Prop :=
  ∀ (omitted passed : PagingArgument) (bound : Name),
    omitted.name ∉ field.arguments.map (·.name) →
      promotion.bindings.get? omitted.name = some bound → passed ≠ omitted →
        (⟨passed.name, .reference bound⟩ : Argument) ∉ field.arguments

/-- That the variable of an omitted argument is passed for no other paging argument once the field
is promoted, so that it can be overridden alone. -/
def IsOverridable (field : PaginatedField) (mode : PagingMode) (promotion : Promotion) : Prop :=
  ∀ omitted ∈ mode.arguments, omitted.name ∉ field.arguments.map (·.name) →
    ∃ bound, promotion.bindings.get? omitted.name = some bound ∧
      ∀ passed : PagingArgument,
        (⟨passed.name, .reference bound⟩ : Argument) ∈ promotion.arguments → passed = omitted

variable {schema : Schema} {field : PaginatedField} {mode : PagingMode} {existing : VariableSet}
  {promotion : Promotion}

theorem mem_arguments_of_argument? {argument : Name} {value : Value}
    (supplied : field.argument? argument = some value) :
    ⟨argument, value⟩ ∈ field.arguments := by
  obtain ⟨written, first, rfl⟩ := Option.map_eq_some_iff.mp supplied
  have called : written.name = argument := by simpa using List.find?_some first
  rw [← called]
  exact List.mem_of_find?_eq_some first

/-- An argument is bound to a variable that is passed for it, or else to that of its own name. -/
theorem eq_or_mem_of_get?_bindings {argument : PagingArgument} {bound : Name}
    (result : promote schema field mode existing = .ok promotion)
    (asked : argument ∈ mode.arguments)
    (isBound : promotion.bindings.get? argument.name = some bound) :
    bound = argument.name ∨ ⟨argument.name, .reference bound⟩ ∈ field.arguments := by
  rw [get?_bindings result asked, Option.some.injEq] at isBound
  rcases requestFor_name (schema.field? field.parentType field.name) field mode argument with
    ⟨passed, supplied, isName⟩ | ⟨_, isName⟩
  · rw [← isBound, isName]
    exact Or.inr (mem_arguments_of_argument? supplied)
  · rw [← isBound, isName]
    exact Or.inl rfl

theorem get?_bindings_of_omitted {argument : PagingArgument}
    (result : promote schema field mode existing = .ok promotion)
    (asked : argument ∈ mode.arguments)
    (omitted : argument.name ∉ field.arguments.map (·.name)) :
    promotion.bindings.get? argument.name = some argument.name := by
  have isBound := get?_bindings result asked
  rcases eq_or_mem_of_get?_bindings result asked isBound with isOwn | written
  · rw [isBound, isOwn]
  · exact absurd (List.mem_map_of_mem written) omitted

/-- A variable that is passed after promotion was passed before, or its argument is bound to it. -/
theorem mem_or_get?_of_mem_promoted {name passed : Name}
    (result : promote schema field mode existing = .ok promotion)
    (member : ⟨name, .reference passed⟩ ∈ promotion.arguments) :
    ⟨name, .reference passed⟩ ∈ field.arguments ∨
      promotion.bindings.get? name = some passed := by
  obtain ⟨_, _, arguments⟩ := promote_eq_ok_iff.mp result
  rw [arguments, promoteArguments] at member
  rcases List.mem_append.mp member with written | missing
  · obtain ⟨source, among, promoted⟩ := List.mem_map.mp written
    have replaced := @replaces_promoteArgument mode promotion.bindings source (keys_bindings result)
    rw [promoted] at replaced
    cases replaced with
    | reference _ _ => exact Or.inl among
    | other _ => exact Or.inl among
    | literal _ _ isBound => exact Or.inr isBound
  · obtain ⟨entry, among, added⟩ := List.mem_map.mp missing
    cases added
    exact Or.inr (get?_bindings_of_mem result (List.mem_filter.mp among).1)

theorem mem_promoted_of_mem {name passed : Name}
    (result : promote schema field mode existing = .ok promotion)
    (written : ⟨name, .reference passed⟩ ∈ field.arguments) :
    ⟨name, .reference passed⟩ ∈ promotion.arguments := by
  obtain ⟨_, _, arguments⟩ := promote_eq_ok_iff.mp result
  rw [arguments, promoteArguments]
  apply List.mem_append_left
  exact List.mem_map.mpr ⟨_, written, promoteArgument_reference _ name passed⟩

theorem mem_arguments_of_get?_bindings {argument : PagingArgument} {bound : Name}
    (result : promote schema field mode existing = .ok promotion)
    (isBound : promotion.bindings.get? argument.name = some bound) :
    argument ∈ mode.arguments := by
  by_cases asked : argument ∈ mode.arguments
  · exact asked
  · have unbound : promotion.bindings.get? argument.name = none := by
      rw [Table.get?_eq_none_iff, keys_bindings result]
      intro among
      obtain ⟨other, isOther, same⟩ := List.mem_map.mp among
      exact asked (PagingArgument.name_inj.mp same ▸ isOther)
    rw [unbound] at isBound
    cases isBound

/-- Where nothing is coupled, the variable of an omitted argument is passed for it alone. -/
theorem isOverridable_of_isUncoupled
    (result : promote schema field mode existing = .ok promotion)
    (uncoupled : promotion.IsUncoupled field) :
    promotion.IsOverridable field mode := by
  intro omitted asked absent
  have isBound := get?_bindings_of_omitted result asked absent
  refine ⟨omitted.name, isBound, fun passed member => ?_⟩
  by_cases same : passed = omitted
  · exact same
  have unwritten := uncoupled omitted passed omitted.name absent isBound same
  rcases mem_or_get?_of_mem_promoted result member with written | alsoBound
  · exact absurd written unwritten
  · have alsoAsked := mem_arguments_of_get?_bindings result alsoBound
    rcases eq_or_mem_of_get?_bindings result alsoAsked alsoBound with sameName | written
    · exact (PagingArgument.name_inj.mp sameName).symm
    · exact absurd written unwritten

/-- Omitted arguments are uncoupled just where the author passes no variable that is called like one
of them for another, and just where their variables can be overridden alone. -/
theorem isUncoupled_iff
    (result : promote schema field mode existing = .ok promotion) :
    (promotion.IsUncoupled field ↔
        ∀ omitted ∈ mode.arguments, omitted.name ∉ field.arguments.map (·.name) →
          ∀ passed : PagingArgument, passed ≠ omitted →
            (⟨passed.name, .reference omitted.name⟩ : Argument) ∉ field.arguments) ∧
      (promotion.IsUncoupled field ↔ promotion.IsOverridable field mode) := by
  refine ⟨⟨?_, ?_⟩, isOverridable_of_isUncoupled result, ?_⟩
  · intro uncoupled omitted asked absent passed different
    exact uncoupled omitted passed omitted.name absent
      (get?_bindings_of_omitted result asked absent) different
  · intro apart omitted passed bound absent isBound different
    have asked := mem_arguments_of_get?_bindings result isBound
    rw [get?_bindings_of_omitted result asked absent, Option.some.injEq] at isBound
    rw [← isBound]
    exact apart omitted asked absent passed different
  · intro overridable omitted passed bound absent isBound different written
    have asked := mem_arguments_of_get?_bindings result isBound
    obtain ⟨_, same, only⟩ := overridable omitted asked absent
    rw [isBound, Option.some.injEq] at same
    apply different
    apply only
    rw [← same]
    exact mem_promoted_of_mem result written

/-- The offset is passed the variable that the limit is bound to. -/
theorem isUncoupled_iff_offset :
    let field := Sample.itemsPassing
      [⟨PagingArgument.offset.name, .reference PagingArgument.limit.name⟩]
    ∃ promotion, promote Sample.schema field .offset VariableSet.empty = .ok promotion ∧
      (promotion.IsUncoupled field ↔
        ∀ omitted ∈ PagingMode.offset.arguments,
          omitted.name ∉ field.arguments.map (·.name) →
          ∀ passed : PagingArgument, passed ≠ omitted →
            (⟨passed.name, .reference omitted.name⟩ : Argument) ∉ field.arguments) ∧
      (promotion.IsUncoupled field ↔ promotion.IsOverridable field .offset) := by
  intro field
  have result : promote Sample.schema field .offset VariableSet.empty = .ok _ := rfl
  exact ⟨_, result, isUncoupled_iff result⟩

/-- Not every promotion leaves omitted arguments uncoupled: if the author passes the variable
`limit` as the offset, the limit is bound to it as well. -/
theorem not_forall_isUncoupled :
    ¬ ∀ (schema : Schema) (field : PaginatedField) (mode : PagingMode) (existing : VariableSet)
      (promotion : Promotion), PagingMode.detect schema field = .ok mode →
      promote schema field mode existing = .ok promotion → promotion.IsUncoupled field := by
  intro always
  have uncoupled := always Sample.schema
    (Sample.itemsPassing [⟨PagingArgument.offset.name, .reference PagingArgument.limit.name⟩])
    .offset VariableSet.empty _ rfl rfl
  exact uncoupled .limit .offset PagingArgument.limit.name (by decide) rfl (by decide)
    List.mem_cons_self

end QueryPaging.Promotion
