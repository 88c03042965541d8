import QueryPaging.NameRegistry
import QueryPaging.Proofs.Tables

/-!
# Name registries

What a registry holds under a name after names were claimed and given up.

- `get?_of_claim` and `get?_release`: only the name in question is touched.
- `claim_eq_error_iff`: a claim fails just where somebody else has the name.
- `authored_of_claim` and `authored_of_release`: authored names stay taken.
-/

namespace QueryPaging

namespace NameRegistry

variable {registry later : NameRegistry} {name other hash : String}

theorem get?_put (claims : Table String Claim) (name other : String) (holder : Claim) :
    (⟨claims.put name holder⟩ : NameRegistry).get? other =
      if name = other then some holder else claims.get? other := by
  by_cases same : name = other
  · subst same
    rw [if_pos rfl]
    exact Table.get?_put_self name holder claims
  · rw [if_neg same]
    exact Table.get?_put_of_ne holder claims (Ne.symm same)

theorem get?_seeded (authored : List String) (name : String) :
    (seeded authored).get? name = if name ∈ authored then some .authored else none := by
  -- The fold is followed from any table, as what was entered before stays authored.
  have entered : ∀ (names : List String) (claims : Table String Claim),
      (names.foldl (fun claims name => claims.put name .authored) claims).get? name =
        if name ∈ names then some .authored else claims.get? name := by
    intro names
    induction names with
    | nil =>
        intro claims
        simp
    | cons first others inductionHypothesis =>
        intro claims
        rw [List.foldl_cons, inductionHypothesis]
        have put := get?_put claims first name .authored
        rw [get?] at put
        rw [put]
        by_cases later : name ∈ others
        · simp [later]
        · by_cases same : first = name
          · simp [same]
          · have different : name ≠ first := Ne.symm same
            simp [later, same, different]
  exact entered authored []

theorem get?_seeded_eq_some {authored : List String} {holder : Claim}
    (held : (seeded authored).get? name = some holder) :
    name ∈ authored ∧ holder = .authored := by
  rw [get?_seeded] at held
  split at held
  · next isAuthored => exact ⟨isAuthored, (Option.some.inj held).symm⟩
  · cases held

/-! ## Claims -/

theorem claim_eq_ok_iff :
    registry.claim name hash = .ok later ↔
      (registry.get? name = none ∧ later = ⟨registry.claims.put name (.generated hash)⟩) ∨
        (registry.get? name = some (.generated hash) ∧ later = registry) := by
  unfold claim
  cases registry.get? name with
  | none => simp [eq_comm]
  | some holder =>
      cases holder with
      | authored => simp
      | generated existing =>
          by_cases same : existing = hash
          · simp [same, eq_comm]
          · simp [same]

theorem claim_eq_error_iff {fault : Fault} :
    registry.claim name hash = .error fault ↔
      fault = .nameCollision name ∧
        ∃ holder, registry.get? name = some holder ∧ holder ≠ .generated hash := by
  unfold claim
  cases registry.get? name with
  | none => simp
  | some holder =>
      cases holder with
      | authored => simp [eq_comm]
      | generated existing =>
          by_cases same : existing = hash
          · simp [same]
          · simp only [same, if_false, Except.error.injEq, Option.some.injEq, exists_eq_left',
              ne_eq, Claim.generated.injEq, not_false_eq_true, and_true]
            exact eq_comm

/-- A claimed name belongs to the hash it was claimed for, and no other name is touched. -/
theorem get?_of_claim (claimed : registry.claim name hash = .ok later) (other : String) :
    later.get? other =
      if name = other then some (.generated hash) else registry.get? other := by
  rcases claim_eq_ok_iff.mp claimed with ⟨_, rfl⟩ | ⟨held, rfl⟩
  · exact get?_put registry.claims name other (.generated hash)
  · by_cases same : name = other
    · rw [if_pos same, ← same, held]
    · rw [if_neg same]

/-- Whoever has a name keeps it when names are claimed. -/
theorem get?_of_claim_of_held {holder : Claim}
    (claimed : registry.claim name hash = .ok later)
    (held : registry.get? other = some holder) :
    later.get? other = some holder := by
  rcases claim_eq_ok_iff.mp claimed with ⟨free, rfl⟩ | ⟨_, rfl⟩
  · have different : name ≠ other := by
      rintro rfl
      rw [free] at held
      cases held
    rw [get?_of_claim claimed, if_neg different, held]
  · exact held

theorem ne_authored_of_claim (claimed : registry.claim name hash = .ok later) :
    registry.get? name ≠ some .authored := by
  rcases claim_eq_ok_iff.mp claimed with ⟨free, _⟩ | ⟨held, _⟩
  · simp [free]
  · simp [held]

theorem authored_of_claim (claimed : registry.claim name hash = .ok later) (other : String) :
    later.get? other = some .authored ↔ registry.get? other = some .authored := by
  rw [get?_of_claim claimed]
  by_cases same : name = other
  · subst same
    simp [ne_authored_of_claim claimed]
  · rw [if_neg same]

/-! ## Distinct names -/

/-- Whether every name stands in the registry once. -/
def IsDistinct (registry : NameRegistry) : Prop :=
  registry.claims.keys.Nodup

theorem isDistinct_seeded (authored : List String) :
    (seeded authored).IsDistinct := by
  have entered : ∀ (names : List String) (claims : Table String Claim), claims.keys.Nodup →
      (Table.keys
        (names.foldl (fun claims name => claims.put name .authored) claims)).Nodup := by
    intro names
    induction names with
    | nil => exact fun _ distinct => distinct
    | cons first others inductionHypothesis =>
        exact fun claims distinct => inductionHypothesis _ (Table.nodup_keys_put distinct)
  exact entered authored [] (by simp [Table.keys])

theorem IsDistinct.claim (distinct : registry.IsDistinct)
    (claimed : registry.claim name hash = .ok later) :
    later.IsDistinct := by
  rcases claim_eq_ok_iff.mp claimed with ⟨_, rfl⟩ | ⟨_, rfl⟩
  · exact Table.nodup_keys_put distinct
  · exact distinct

theorem IsDistinct.release (distinct : registry.IsDistinct) (name : String) :
    (registry.release name).IsDistinct :=
  distinct.sublist (List.filter_sublist.map _)

/-! ## Giving up -/

/-- A name that is given up is free again unless it is authored. -/
theorem get?_release (distinct : registry.IsDistinct) (name other : String) :
    (registry.release name).get? other =
      if name = other ∧ registry.get? other ≠ some .authored then none
      else registry.get? other := by
  have filtered := Table.get?_filter
    (fun held holder => !(held == name && holder != Claim.authored)) other distinct
  rw [get?, release, filtered, ← get?]
  cases registry.get? other with
  | none => simp
  | some holder =>
      by_cases same : name = other
      · subst same
        by_cases isAuthored : holder = .authored
        · simp [isAuthored]
        · simp [isAuthored]
      · have different : other ≠ name := Ne.symm same
        simp [same, different]

theorem authored_of_release (distinct : registry.IsDistinct) (name other : String) :
    (registry.release name).get? other = some .authored ↔
      registry.get? other = some .authored := by
  rw [get?_release distinct]
  by_cases isAuthored : registry.get? other = some .authored
  · simp [isAuthored]
  · by_cases same : name = other
    · simp [same, isAuthored]
    · simp [same]

/-- A name that was free before it was claimed leaves no trace when it is given up. -/
theorem release_of_claim {claimed : NameRegistry}
    (free : registry.get? name = none)
    (claims : registry.claim name hash = .ok claimed) :
    claimed.release name = registry := by
  rw [claim, free, Except.ok.injEq] at claims
  have entered := Table.put_of_get?_eq_none (Claim.generated hash) free
  have others : registry.claims.filter
      (fun entry => !(entry.1 == name && entry.2 != Claim.authored)) = registry.claims := by
    apply List.filter_eq_self.mpr
    intro entry member
    have different : entry.1 ≠ name := by
      rintro rfl
      exact Table.get?_eq_none_iff.mp free (List.mem_map_of_mem member)
    simp [different]
  have last : [(name, Claim.generated hash)].filter
      (fun entry => !(entry.1 == name && entry.2 != Claim.authored)) = [] := by
    simp
  rw [← claims, release, entered, List.filter_append, others, last, List.append_nil]

end NameRegistry

end QueryPaging
