import Mathlib.Data.List.Nodup
import QueryPaging.Proofs.VariableSets

/-!
# Merging requests into a set

Requests are met one after the other, and a later one has to agree with what an earlier one entered.

- `VariableRequest.Suits`: that a request agrees with a binding.
- `VariableSet.requested`: what a set lacks of the variables that requests ask for.
- `VariableSet.isMerged_or_isRefused`: merging extends the set by just that and comes to the same
  when it is done again, or it stops at the first request that does not agree.
-/

namespace QueryPaging

/-! ## Requests and bindings -/

namespace VariableRequest

/-- That a request agrees with a binding: in the named type, in the default where it passes a
literal, and in that a variable of a lookup is nothing else. -/
structure Suits (request : VariableRequest) (binding : VariableBinding) : Prop where
  type : binding.type.inner = request.type.inner
  literal : ∀ value, request.kind = .literal value → binding.default = some value
  identity : binding.origin = .identity ↔ request.origin = .identity

variable {request : VariableRequest} {binding : VariableBinding}

theorem crossesIdentity_eq_false_iff :
    request.crossesIdentity binding = false ↔
      (binding.origin = .identity ↔ request.origin = .identity) := by
  unfold crossesIdentity
  cases binding.origin <;> cases request.origin <;> decide

theorem isMetBy_iff :
    request.isMetBy binding = true ↔ request.Suits binding := by
  have apart : request.isMetBy binding = true ↔
      (request.crossesIdentity binding = false ∧ binding.type.inner = request.type.inner) ∧
        ∀ value, request.kind = .literal value → binding.default = some value := by
    rw [isMetBy, Bool.and_eq_true, Bool.and_eq_true, Bool.not_eq_true', beq_iff_eq]
    refine and_congr_right' ?_
    cases request.kind <;> simp
  rw [apart, crossesIdentity_eq_false_iff]
  constructor
  · rintro ⟨⟨identity, type⟩, literal⟩
    exact ⟨type, literal, identity⟩
  · intro suits
    exact ⟨⟨suits.identity, suits.type⟩, suits.literal⟩

theorem suits_binding (request : VariableRequest) :
    request.Suits request.binding where
  type := rfl
  literal := by
    intro value isLiteral
    rw [binding, default, isLiteral]
  identity := Iff.rfl

end VariableRequest

namespace VariableSet

variable {set met merged : VariableSet} {request : VariableRequest}
  {requests : List VariableRequest}

/-! ## What is bound -/

theorem get?_meet (name : Name)
    (result : set.meet request = .ok met) :
    met.get? name =
      (set.get? name).or (if request.name = name then some request.binding else none) := by
  rcases meet_cases result with ⟨existing, bound, _, rfl⟩ | ⟨_, extended⟩
  · by_cases same : request.name = name
    · rw [← same, bound, Option.some_or]
    · rw [if_neg same, Option.or_none]
  · exact get?_of_bindings_append_singleton name extended

/-- A variable keeps its binding, or else it has that of the first request for it. -/
theorem get?_merge (name : Name)
    (result : set.merge requests = .ok merged) :
    merged.get? name =
      (set.get? name).or ((requests.find? (·.name == name)).map VariableRequest.binding) := by
  induction requests generalizing set with
  | nil =>
      cases result
      rw [List.find?_nil, Option.map_none, Option.or_none]
  | cons request requests inductionHypothesis =>
      obtain ⟨met, meeting, later⟩ := merge_cons_eq_ok_iff.mp result
      rw [inductionHypothesis later, get?_meet name meeting, Option.or_assoc]
      by_cases same : request.name = name
      · simp [same]
      · simp [same]

theorem names_meet
    (result : set.meet request = .ok met) :
    met.names = if request.name ∈ set.names then set.names else set.names ++ [request.name] := by
  rcases meet_cases result with ⟨existing, bound, _, rfl⟩ | ⟨unbound, extended⟩
  · rw [if_pos (mem_names_of_get?_eq_some bound)]
  · rw [if_neg (get?_eq_none_iff.mp unbound), names, extended, List.map_append]
    rfl

/-- The names that are not bound are entered behind the others, each where it is first asked for. -/
theorem names_merge
    (result : set.merge requests = .ok merged) :
    merged.names =
      set.names ++ ((requests.map (·.name)).filter (· ∉ set.names)).eraseDups := by
  induction requests generalizing set with
  | nil =>
      cases result
      simp
  | cons request requests inductionHypothesis =>
      obtain ⟨met, meeting, later⟩ := merge_cons_eq_ok_iff.mp result
      have names := names_meet meeting
      rw [List.map_cons, inductionHypothesis later]
      by_cases present : request.name ∈ set.names
      · rw [if_pos present] at names
        rw [names, List.filter_cons_of_neg (by simpa using present)]
      · rw [if_neg present] at names
        -- The name is entered now, so what is left of the requests is filtered by it as well.
        rw [names, List.filter_cons_of_pos (by simpa using present), List.eraseDups_cons,
          List.filter_filter, List.append_assoc, List.singleton_append]
        congr 4
        funext name
        by_cases same : name = request.name
        · simp [same]
        · simp [same]

/-- The bindings of the names that requests ask for and a set does not bind: each where it is first
asked for, as it is asked for there. -/
def requested (set : VariableSet) (requests : List VariableRequest) : List VariableBinding :=
  ((requests.map (·.name)).filter (· ∉ set.names)).eraseDups.filterMap fun name =>
    (requests.find? (·.name == name)).map VariableRequest.binding

theorem get?_eq_some_of_mem {binding : VariableBinding}
    (member : binding ∈ set.bindings) :
    set.get? binding.name = some binding := by
  obtain ⟨found, bound⟩ := exists_get?_eq_some_iff.mpr (List.mem_map_of_mem member)
  have sameName : found.name = binding.name := by simpa using List.find?_some bound
  have sameBinding : found = binding :=
    List.inj_on_of_nodup_map set.distinct (List.mem_of_find?_eq_some bound) member sameName
  rw [bound, sameBinding]

/-- A set is told by its names, in order, and by what they are bound to. -/
theorem bindings_eq_filterMap (set : VariableSet) :
    set.bindings = set.names.filterMap set.get? := by
  rw [names, List.filterMap_map]
  have same : ∀ binding ∈ set.bindings,
      (set.get? ∘ fun binding : VariableBinding => binding.name) binding = some binding :=
    fun binding member => get?_eq_some_of_mem member
  rw [List.filterMap_congr same, List.filterMap_some]

theorem bindings_merge
    (result : set.merge requests = .ok merged) :
    merged.bindings = set.bindings ++ set.requested requests := by
  rw [bindings_eq_filterMap merged, names_merge result, List.filterMap_append]
  congr 1
  · rw [bindings_eq_filterMap set]
    refine List.filterMap_congr fun name isBound => ?_
    obtain ⟨binding, bound⟩ := exists_get?_eq_some_iff.mpr isBound
    rw [get?_merge name result, bound, Option.some_or]
  · refine List.filterMap_congr fun name isNew => ?_
    have unbound : name ∉ set.names := by
      simpa using (List.mem_filter.mp (List.mem_eraseDups.mp isNew)).2
    rw [get?_merge name result, get?_eq_none_iff.mpr unbound, Option.none_or]

/-! ## What is met -/

/-- Every request agrees with the binding that its name has in the end. -/
theorem exists_suits_of_merge
    (result : set.merge requests = .ok merged) :
    ∀ request ∈ requests, ∃ binding, merged.get? request.name = some binding ∧
      request.Suits binding := by
  induction requests generalizing set with
  | nil => exact nofun
  | cons first others inductionHypothesis =>
      obtain ⟨met, meeting, later⟩ := merge_cons_eq_ok_iff.mp result
      obtain ⟨added, extended, _⟩ := (merge_extends later).bindings
      intro request member
      rcases List.mem_cons.mp member with rfl | behind
      · rcases meet_cases meeting with ⟨existing, bound, isMet, rfl⟩ | ⟨unbound, entered⟩
        · exact ⟨existing, get?_of_bindings_append extended bound,
            VariableRequest.isMetBy_iff.mp isMet⟩
        · refine ⟨request.binding, get?_of_bindings_append extended ?_, request.suits_binding⟩
          rw [get?_of_bindings_append_singleton _ entered, unbound, Option.none_or]
          exact if_pos rfl
      · exact inductionHypothesis later request behind

/-- What was bound before agrees with every request for it. -/
theorem suits_of_merge {binding : VariableBinding}
    (result : set.merge requests = .ok merged)
    (member : request ∈ requests)
    (bound : set.get? request.name = some binding) :
    request.Suits binding := by
  obtain ⟨found, alsoBound, suits⟩ := exists_suits_of_merge result request member
  obtain ⟨added, extended, _⟩ := (merge_extends result).bindings
  rw [get?_of_bindings_append extended bound, Option.some.injEq] at alsoBound
  exact alsoBound ▸ suits

/-- Requests that agree with what is bound change nothing. -/
theorem merge_eq_self_of_suits
    (suits : ∀ request ∈ requests, ∃ binding, set.get? request.name = some binding ∧
      request.Suits binding) :
    set.merge requests = .ok set := by
  induction requests with
  | nil => rfl
  | cons request others inductionHypothesis =>
      obtain ⟨binding, bound, agrees⟩ := suits request List.mem_cons_self
      refine merge_cons_eq_ok_iff.mpr ⟨set, ?_, ?_⟩
      · simp only [meet, bound]
        rw [if_pos (VariableRequest.isMetBy_iff.mpr agrees)]
      · exact inductionHypothesis fun other member => suits other (List.mem_cons_of_mem _ member)

/-! ## Outcomes -/

/-- What merging extends a set to: nothing that was bound is touched, all that was asked for is
bound and agrees, and asking once more changes nothing. -/
structure IsMerged (set : VariableSet) (requests : List VariableRequest) (merged : VariableSet) :
    Prop where
  bindings : merged.bindings = set.bindings ++ set.requested requests
  suits : ∀ request ∈ requests, ∃ binding, merged.get? request.name = some binding ∧
    request.Suits binding
  again : merged.merge requests = .ok merged

/-- Where merging stops: at a request that does not agree with what its name is bound to by then,
behind others that could be met. -/
inductive IsRefused (set : VariableSet) : List VariableRequest → Fault → Prop where
  | contradiction {before after : List VariableRequest} {request : VariableRequest}
      {met : VariableSet} {existing : VariableBinding}
      (earlier : set.merge before = .ok met)
      (bound : met.get? request.name = some existing)
      (contradicts : ¬ request.Suits existing) :
      IsRefused set (before ++ request :: after)
        (.variableCollision request.name request.argument existing.type request.type)

theorem isRefused_of_merge {fault : Fault}
    (failed : set.merge requests = .error fault) :
    set.IsRefused requests fault := by
  induction requests generalizing set with
  | nil => cases failed
  | cons first others inductionHypothesis =>
      rw [merge_cons] at failed
      cases meeting : set.meet first with
      | error stop =>
          rw [meeting] at failed
          cases failed
          unfold meet at meeting
          split at meeting
          · cases meeting
          · next existing bound =>
              split at meeting
              · cases meeting
              · next unmet =>
                  cases meeting
                  exact @IsRefused.contradiction _ [] _ _ _ _ rfl bound
                    (unmet ∘ VariableRequest.isMetBy_iff.mpr)
      | ok next =>
          rw [meeting] at failed
          cases inductionHypothesis failed with
          | @contradiction before after request met existing earlier bound contradicts =>
              have alsoFirst := merge_cons_eq_ok_iff.mpr ⟨next, meeting, earlier⟩
              exact @IsRefused.contradiction _ (first :: before) _ _ _ _ alsoFirst bound
                contradicts

/-- Merging keeps what is bound and appends what is asked for, so that it may be done again without
effect; or it stops at the first request that contradicts what is bound when its turn comes. -/
theorem isMerged_or_isRefused (set : VariableSet) (requests : List VariableRequest) :
    (∃ merged, set.merge requests = .ok merged ∧ set.IsMerged requests merged) ∨
      ∃ fault, set.merge requests = .error fault ∧ set.IsRefused requests fault := by
  cases result : set.merge requests with
  | ok merged =>
      have suits := exists_suits_of_merge result
      exact Or.inl ⟨merged, rfl, bindings_merge result, suits, merge_eq_self_of_suits suits⟩
  | error fault => exact Or.inr ⟨fault, rfl, isRefused_of_merge result⟩

/-- The second literal contradicts the first, which was entered just before. -/
example :
    empty.merge
        [⟨Name.idType, .named Name.intType false, Name.idType, .promoted, .literal (.int "10")⟩,
          ⟨Name.idType, .named Name.intType true, Name.idType, .promoted, .literal (.int "20")⟩] =
      .error (.variableCollision Name.idType Name.idType (.named Name.intType false)
        (.named Name.intType true)) :=
  rfl

end VariableSet

end QueryPaging
