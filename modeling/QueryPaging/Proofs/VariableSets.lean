import QueryPaging.VariableSet

/-!
# Variable sets

What a set holds after bindings were entered or requests were met.

- Entering new names appends their bindings.
- Meeting requests keeps all bindings in place and appends those of the names that were not bound.
- Every request that was met has a binding with the same type at its core.
-/

namespace QueryPaging

namespace VariableSet

@[ext]
theorem ext_bindings {left right : VariableSet}
    (same : left.bindings = right.bindings) :
    left = right := by
  cases left
  cases right
  cases same
  rfl

/-! ## Lookup -/

theorem get?_eq_none_iff {set : VariableSet} {name : Name} :
    set.get? name = none ↔ name ∉ set.names := by
  simp [get?, names, List.find?_eq_none]

theorem exists_get?_eq_some_iff {set : VariableSet} {name : Name} :
    (∃ binding, set.get? name = some binding) ↔ name ∈ set.names := by
  rw [← Option.isSome_iff_exists, Option.isSome_iff_ne_none, ne_eq, get?_eq_none_iff,
    Decidable.not_not]

theorem mem_names_of_get?_eq_some {set : VariableSet} {name : Name} {binding : VariableBinding}
    (bound : set.get? name = some binding) :
    name ∈ set.names :=
  exists_get?_eq_some_iff.mp ⟨binding, bound⟩

/-! ## Insertion -/

theorem insertBinding_of_not_mem {binding : VariableBinding} {bindings : List VariableBinding}
    (fresh : binding.name ∉ bindings.map (·.name)) :
    insertBinding binding bindings = bindings ++ [binding] := by
  induction bindings with
  | nil => rfl
  | cons first others inductionHypothesis =>
      rw [List.map_cons, List.mem_cons, not_or] at fresh
      rw [insertBinding, if_neg (Ne.symm fresh.1), inductionHypothesis fresh.2, List.cons_append]

theorem mem_insertBinding {binding entry : VariableBinding} {bindings : List VariableBinding}
    (member : entry ∈ insertBinding binding bindings) :
    entry = binding ∨ entry ∈ bindings := by
  induction bindings with
  | nil => simpa [insertBinding] using member
  | cons first others inductionHypothesis =>
      rw [insertBinding] at member
      split at member
      · rcases List.mem_cons.mp member with same | later
        · exact Or.inl same
        · exact Or.inr (List.mem_cons_of_mem first later)
      · rcases List.mem_cons.mp member with same | later
        · exact Or.inr (by simp [same])
        · exact (inductionHypothesis later).imp_right (List.mem_cons_of_mem first)

theorem mem_names_insert {set : VariableSet} {binding : VariableBinding} {name : Name} :
    name ∈ (set.insert binding).names ↔ name = binding.name ∨ name ∈ set.names := by
  unfold names insert
  rw [names_insertBinding]
  split
  · next present =>
      constructor
      · exact Or.inr
      · rintro (rfl | member)
        · exact present
        · exact member
  · simp [or_comm]

/-- Entering bindings of new names appends them. -/
theorem bindings_foldl_insert (set : VariableSet) {added : List VariableBinding}
    (distinct : ((set.bindings ++ added).map (·.name)).Nodup) :
    (added.foldl insert set).bindings = set.bindings ++ added := by
  induction added generalizing set with
  | nil => simp
  | cons first others inductionHypothesis =>
      have fresh : first.name ∉ set.bindings.map (·.name) := by
        intro member
        rw [List.map_append, List.nodup_append] at distinct
        exact distinct.2.2 _ member _ (by simp) rfl
      have entered : (set.insert first).bindings = set.bindings ++ [first] :=
        insertBinding_of_not_mem fresh
      rw [List.foldl_cons, inductionHypothesis _ (by simpa [entered] using distinct), entered,
        List.append_assoc, List.singleton_append]

/-- A set of bindings with distinct names holds just these. -/
theorem bindings_ofBindings {bindings : List VariableBinding}
    (distinct : (bindings.map (·.name)).Nodup) :
    (ofBindings bindings).bindings = bindings :=
  bindings_foldl_insert empty distinct

theorem ofBindings_append (initial added : List VariableBinding) :
    ofBindings (initial ++ added) = added.foldl insert (ofBindings initial) := by
  simp [ofBindings]

theorem mem_names_foldl_insert {set : VariableSet} {added : List VariableBinding} {name : Name} :
    name ∈ (added.foldl insert set).names ↔
      name ∈ set.names ∨ name ∈ added.map (·.name) := by
  induction added generalizing set with
  | nil => simp
  | cons first others inductionHypothesis =>
      rw [List.foldl_cons, inductionHypothesis, mem_names_insert, List.map_cons, List.mem_cons]
      constructor
      · rintro ((same | member) | later)
        · exact Or.inr (Or.inl same)
        · exact Or.inl member
        · exact Or.inr (Or.inr later)
      · rintro (member | same | later)
        · exact Or.inl (Or.inr member)
        · exact Or.inl (Or.inl same)
        · exact Or.inr later

theorem mem_names_ofBindings {bindings : List VariableBinding} {name : Name} :
    name ∈ (ofBindings bindings).names ↔ name ∈ bindings.map (·.name) := by
  rw [ofBindings, mem_names_foldl_insert]
  simp [names, empty]

theorem mem_foldl_insert {set : VariableSet} {added : List VariableBinding}
    {entry : VariableBinding}
    (member : entry ∈ (added.foldl insert set).bindings) :
    entry ∈ set.bindings ∨ entry ∈ added := by
  induction added generalizing set with
  | nil => exact Or.inl member
  | cons first others inductionHypothesis =>
      rcases inductionHypothesis member with entered | later
      · rcases mem_insertBinding entered with same | before
        · exact Or.inr (by simp [same])
        · exact Or.inl before
      · exact Or.inr (List.mem_cons_of_mem first later)

theorem mem_of_mem_ofBindings {bindings : List VariableBinding} {entry : VariableBinding}
    (member : entry ∈ (ofBindings bindings).bindings) :
    entry ∈ bindings :=
  (mem_foldl_insert member).resolve_left (by simp [empty])

/-! ## Meeting requests -/

structure Extends (set : VariableSet) (requests : List VariableRequest) (merged : VariableSet) :
    Prop where
  /-- The bindings stay as they are, and those of some requests are appended. -/
  bindings : ∃ added, merged.bindings = set.bindings ++ added ∧
    ∀ binding ∈ added, ∃ request ∈ requests, binding = request.binding
  /-- Every request has a binding whose type is the same at its core. -/
  met : ∀ request ∈ requests, ∃ binding, merged.get? request.name = some binding ∧
    binding.type.inner = request.type.inner

theorem get?_of_bindings_append {set merged : VariableSet} {added : List VariableBinding}
    {name : Name} {binding : VariableBinding}
    (extended : merged.bindings = set.bindings ++ added)
    (bound : set.get? name = some binding) :
    merged.get? name = some binding := by
  unfold get? at bound ⊢
  rw [extended, List.find?_append, bound, Option.some_or]

/-- A request is met by the set as it is, or its binding is appended. -/
theorem meet_cases {set met : VariableSet} {request : VariableRequest}
    (result : set.meet request = .ok met) :
    (∃ existing, set.get? request.name = some existing ∧ request.isMetBy existing = true ∧
        met = set) ∨
      set.get? request.name = none ∧ met.bindings = set.bindings ++ [request.binding] := by
  unfold meet at result
  cases bound : set.get? request.name with
  | none =>
      simp only [bound, Except.ok.injEq] at result
      have fresh : request.binding.name ∉ set.bindings.map (·.name) := get?_eq_none_iff.mp bound
      refine Or.inr ⟨rfl, ?_⟩
      rw [← result]
      exact insertBinding_of_not_mem fresh
  | some existing =>
      simp only [bound] at result
      split at result
      · next isMet =>
          cases result
          exact Or.inl ⟨existing, rfl, isMet, rfl⟩
      · cases result

theorem get?_of_bindings_append_singleton {set met : VariableSet} {added : VariableBinding}
    (name : Name)
    (extended : met.bindings = set.bindings ++ [added]) :
    met.get? name = (set.get? name).or (if added.name = name then some added else none) := by
  rw [get?, extended, List.find?_append, ← get?]
  by_cases same : added.name = name
  · simp [same]
  · simp [same]

theorem meet_extends {set met : VariableSet} {request : VariableRequest}
    (result : set.meet request = .ok met) :
    Extends set [request] met := by
  rcases meet_cases result with ⟨existing, bound, isMet, rfl⟩ | ⟨unbound, extended⟩
  · refine ⟨⟨[], by simp, by simp⟩, ?_⟩
    intro wanted member
    rw [List.mem_singleton] at member
    subst member
    refine ⟨existing, bound, ?_⟩
    simp only [VariableRequest.isMetBy, Bool.and_eq_true, beq_iff_eq] at isMet
    exact isMet.1.2
  · refine ⟨⟨[request.binding], extended, by simp⟩, ?_⟩
    intro wanted member
    rw [List.mem_singleton] at member
    subst member
    refine ⟨wanted.binding, ?_, rfl⟩
    rw [get?_of_bindings_append_singleton _ extended, unbound, Option.none_or]
    exact if_pos rfl

theorem merge_cons {set : VariableSet} {request : VariableRequest}
    {requests : List VariableRequest} :
    set.merge (request :: requests) = set.meet request >>= fun met => met.merge requests := by
  rw [merge, List.foldlM_cons]
  rfl

theorem merge_cons_eq_ok_iff {set merged : VariableSet} {request : VariableRequest}
    {requests : List VariableRequest} :
    set.merge (request :: requests) = .ok merged ↔
      ∃ met, set.meet request = .ok met ∧ met.merge requests = .ok merged := by
  rw [merge_cons]
  cases set.meet request <;> simp [bind, Except.bind]

/-- Meeting requests keeps the bindings and appends those of new names. -/
theorem merge_extends {requests : List VariableRequest} {set merged : VariableSet}
    (result : set.merge requests = .ok merged) :
    Extends set requests merged := by
  induction requests generalizing set with
  | nil =>
      cases result
      exact ⟨⟨[], by simp, by simp⟩, by simp⟩
  | cons request requests inductionHypothesis =>
      obtain ⟨met, meeting, others⟩ := merge_cons_eq_ok_iff.mp result
      have here := meet_extends meeting
      have later := inductionHypothesis others
      obtain ⟨added, entered, fromHere⟩ := here.bindings
      obtain ⟨others, extended, fromLater⟩ := later.bindings
      refine ⟨⟨added ++ others, by rw [extended, entered, List.append_assoc], ?_⟩, ?_⟩
      · intro binding member
        rcases List.mem_append.mp member with new | new
        · obtain ⟨source, only, same⟩ := fromHere binding new
          exact ⟨source, by simp [List.mem_singleton.mp only], same⟩
        · obtain ⟨source, among, same⟩ := fromLater binding new
          exact ⟨source, List.mem_cons_of_mem request among, same⟩
      · intro wanted member
        rcases List.mem_cons.mp member with rfl | among
        · obtain ⟨binding, bound, sameCore⟩ := here.met wanted (by simp)
          exact ⟨binding, get?_of_bindings_append extended bound, sameCore⟩
        · exact later.met wanted among

/-- The names of a set that met requests are its own and those requested. -/
theorem Extends.mem_names_iff {set merged : VariableSet} {requests : List VariableRequest}
    (extended : Extends set requests merged) {name : Name} :
    name ∈ merged.names ↔ name ∈ set.names ∨ name ∈ requests.map (·.name) := by
  obtain ⟨added, bindings, fromRequests⟩ := extended.bindings
  constructor
  · intro member
    rw [names, bindings, List.map_append, List.mem_append] at member
    rcases member with before | new
    · exact Or.inl before
    · obtain ⟨binding, among, rfl⟩ := List.mem_map.mp new
      obtain ⟨request, wanted, rfl⟩ := fromRequests binding among
      exact Or.inr (List.mem_map.mpr ⟨request, wanted, rfl⟩)
  · rintro (before | wanted)
    · rw [names, bindings, List.map_append]
      exact List.mem_append_left _ before
    · obtain ⟨request, among, rfl⟩ := List.mem_map.mp wanted
      obtain ⟨binding, bound, _⟩ := extended.met request among
      exact mem_names_of_get?_eq_some bound

end VariableSet

end QueryPaging
