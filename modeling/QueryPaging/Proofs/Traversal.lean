import QueryPaging.Proofs.Expansion
import QueryPaging.Proofs.Independence

/-!
# The order of a traversal

The fragments that another reaches come in depth-first pre-order, each where its name is met first.
A name that the index lacks is the only reason to fail.

- `occurrences` lists the names on all ways from some spreads, and `order` the first of each.
- `reachable_eq_order`: what is reached is what the index gives for the names of the order.
- `mem_order_iff`: these are the names that spreads lead to.
-/

namespace QueryPaging

/-! ## First occurrences -/

/-- The names that are not in `seen`, each where it occurs first. -/
def firstNames (seen : List Name) : List Name → List Name
  | [] => []
  | name :: others =>
      if name ∈ seen then firstNames seen others
      else name :: firstNames (name :: seen) others

section FirstNames

variable {seen names : List Name} {name : Name}

theorem mem_firstNames_iff :
    name ∈ firstNames seen names ↔ name ∈ names ∧ name ∉ seen := by
  induction names generalizing seen with
  | nil => simp [firstNames]
  | cons first others inductionHypothesis =>
      by_cases isSeen : first ∈ seen
      · rw [firstNames, if_pos isSeen, inductionHypothesis, List.mem_cons]
        constructor
        · exact fun ⟨later, unseen⟩ => ⟨Or.inr later, unseen⟩
        · rintro ⟨rfl | later, unseen⟩
          · exact absurd isSeen unseen
          · exact ⟨later, unseen⟩
      · rw [firstNames, if_neg isSeen, List.mem_cons, inductionHypothesis, List.mem_cons,
          List.mem_cons, not_or]
        by_cases same : name = first
        · simpa [same] using isSeen
        · simp [same]

theorem nodup_firstNames (seen names : List Name) :
    (firstNames seen names).Nodup := by
  induction names generalizing seen with
  | nil => exact List.nodup_nil
  | cons first others inductionHypothesis =>
      by_cases isSeen : first ∈ seen
      · rw [firstNames, if_pos isSeen]
        exact inductionHypothesis seen
      · rw [firstNames, if_neg isSeen, List.nodup_cons]
        refine ⟨fun again => ?_, inductionHypothesis (first :: seen)⟩
        exact (mem_firstNames_iff.mp again).2 List.mem_cons_self

theorem firstNames_eq_nil
    (known : names ⊆ seen) :
    firstNames seen names = [] := by
  rw [List.eq_nil_iff_forall_not_mem]
  intro name member
  obtain ⟨among, unseen⟩ := mem_firstNames_iff.mp member
  exact unseen (known among)

theorem firstNames_append (seen first others : List Name) :
    firstNames seen (first ++ others) =
      firstNames seen first
        ++ firstNames ((firstNames seen first).reverse ++ seen) others := by
  induction first generalizing seen with
  | nil => rfl
  | cons name rest inductionHypothesis =>
      by_cases isSeen : name ∈ seen
      · simp only [List.cons_append, firstNames, if_pos isSeen, inductionHypothesis]
      · simp only [List.cons_append, firstNames, if_neg isSeen, inductionHypothesis,
          List.reverse_cons, List.append_assoc, List.nil_append]

theorem mem_reverse_firstNames_append_iff :
    name ∈ (firstNames seen names).reverse ++ seen ↔ name ∈ names ∨ name ∈ seen := by
  rw [List.mem_append, List.mem_reverse, mem_firstNames_iff]
  by_cases isSeen : name ∈ seen
  · simp [isSeen]
  · simp [isSeen]

theorem firstNames_eq_eraseDups :
    firstNames seen names = (names.filter (· ∉ seen)).eraseDups := by
  induction names generalizing seen with
  | nil => rfl
  | cons first others inductionHypothesis =>
      by_cases isSeen : first ∈ seen
      · rw [firstNames, if_pos isSeen, inductionHypothesis,
          List.filter_cons_of_neg (by simpa using isSeen)]
      · rw [firstNames, if_neg isSeen, inductionHypothesis,
          List.filter_cons_of_pos (by simpa using isSeen), List.eraseDups_cons, List.filter_filter]
        congr 3
        funext other
        by_cases same : other = first
        · simp [same]
        · simp [same]

end FirstNames

namespace FragmentIndex

/-! ## All occurrences -/

/-- The names on the ways from pending spreads, depth-first in pre-order and as often as they are
met. A way ends at a name that it has come by already, and at one that the index lacks. -/
def occurrences (index : FragmentIndex) (way pending : List Name) : List Name :=
  match pending with
  | [] => []
  | name :: others =>
      if name ∈ way then
        occurrences index way others
      else
        match _found : index.get? name with
        | none => name :: occurrences index way others
        | some fragment =>
            name :: (occurrences (without name index) (name :: way)
                (spreadNamesOf fragment.selections)
              ++ occurrences index way others)
termination_by (index.length, pending.length)
decreasing_by
  · exact Prod.Lex.right _ (by simp)
  · exact Prod.Lex.right _ (by simp)
  · exact Prod.Lex.left _ _ (length_without_lt _found)
  · exact Prod.Lex.right _ (by simp)

/-- The names that a fragment leads to other than its own, in depth-first pre-order of their first
occurrences. -/
def order (index : FragmentIndex) (root : Fragment) : List Name :=
  (index.occurrences [root.name] (spreadNamesOf root.selections)).eraseDups

/-- The fragment of a name that is spread. -/
def require (index : FragmentIndex) (name : Name) : Except Fault Fragment :=
  match index.get? name with
  | none => .error (.unsupportedShape ("..." ++ name.text) (.missingFragment name))
  | some fragment => .ok fragment

variable {index : FragmentIndex} {way seen pending rest others : List Name} {name first : Name}
  {fragment body root : Fragment} {included : List Fragment}

theorem require_eq_ok_iff :
    index.require name = .ok fragment ↔ index.get? name = some fragment := by
  rw [require]
  cases index.get? name <;> simp

theorem reached_of_mem_occurrences
    (member : name ∈ occurrences index way pending) :
    Reached index way pending name := by
  fun_induction occurrences index way pending with
  | case1 index way => cases member
  | case2 index way first others onWay inductionHypothesis =>
      exact (inductionHypothesis member).mono (List.subset_cons_self first others)
  | case3 index way first others fresh missing inductionHypothesis =>
      rcases List.mem_cons.mp member with rfl | later
      · exact .pending List.mem_cons_self fresh
      · exact (inductionHypothesis later).mono (List.subset_cons_self first others)
  | case4 index way first others fresh body found inside behind =>
      rcases List.mem_cons.mp member with rfl | later
      · exact .pending List.mem_cons_self fresh
      rcases List.mem_append.mp later with below | after
      · have reached := (inside below).mono (List.subset_append_left _ others)
        exact reached.of_without fresh found
      · exact (behind after).mono (List.subset_cons_self first others)

theorem mem_occurrences_of_mem
    (member : name ∈ pending)
    (fresh : name ∉ way) :
    name ∈ occurrences index way pending := by
  fun_induction occurrences index way pending with
  | case1 index way => exact member
  | case2 index way first others onWay inductionHypothesis =>
      rcases List.mem_cons.mp member with rfl | later
      · exact absurd onWay fresh
      · exact inductionHypothesis later fresh
  | case3 index way first others _ missing inductionHypothesis =>
      rcases List.mem_cons.mp member with rfl | later
      · exact List.mem_cons_self
      · exact List.mem_cons_of_mem first (inductionHypothesis later fresh)
  | case4 index way first others _ body found inside behind =>
      rcases List.mem_cons.mp member with rfl | later
      · exact List.mem_cons_self
      · exact List.mem_cons_of_mem first (List.mem_append_right _ (behind later fresh))

/-- What a met name spreads is met as well, as far as it is not on the way from the start. -/
theorem mem_occurrences_of_spread {via : Name}
    (member : via ∈ occurrences index way pending)
    (found : index.get? via = some fragment)
    (spread : name ∈ spreadNamesOf fragment.selections)
    (fresh : name ∉ way) :
    name ∈ occurrences index way pending := by
  fun_induction occurrences index way pending with
  | case1 index way => cases member
  | case2 index way first others onWay inductionHypothesis =>
      exact inductionHypothesis member found fresh
  | case3 index way first others unmet missing inductionHypothesis =>
      rcases List.mem_cons.mp member with rfl | later
      · rw [missing] at found
        cases found
      · exact List.mem_cons_of_mem first (inductionHypothesis later found fresh)
  | case4 index way first others unmet body isFound inside behind =>
      by_cases same : name = first
      · rw [same]
        exact List.mem_cons_self
      have unpassed : name ∉ first :: way := List.not_mem_cons_of_ne_of_not_mem same fresh
      apply List.mem_cons_of_mem first
      rcases List.mem_cons.mp member with rfl | later
      · rw [isFound, Option.some.injEq] at found
        subst found
        exact List.mem_append_left _ (mem_occurrences_of_mem spread unpassed)
      rcases List.mem_append.mp later with below | after
      · -- Below a fragment, the smaller index still knows all that is met there.
        have different := List.ne_of_not_mem_cons (reached_of_mem_occurrences below).unseen
        rw [← get?_without different] at found
        exact List.mem_append_left _ (inside below found unpassed)
      · exact List.mem_append_right _ (behind after found fresh)

theorem mem_occurrences_iff :
    name ∈ occurrences index way pending ↔ Reached index way pending name := by
  constructor
  · exact reached_of_mem_occurrences
  · intro reached
    induction reached with
    | pending member fresh => exact mem_occurrences_of_mem member fresh
    | spread reached found member fresh inductionHypothesis =>
        exact mem_occurrences_of_spread inductionHypothesis found member fresh

/-! ## The search meets first occurrences -/

/-- That what is spread by seen fragments is seen, those on the way apart. -/
def IsClosed (index : FragmentIndex) (way seen : List Name) : Prop :=
  ∀ name ∈ seen, name ∉ way → ∀ fragment, index.get? name = some fragment →
    spreadNamesOf fragment.selections ⊆ seen

theorem IsClosed.on_way
    (closed : index.IsClosed way seen)
    (included : seen ⊆ rest)
    (onlyFirst : ∀ name ∈ rest, name ≠ first → name ∈ seen) :
    (without first index).IsClosed (first :: way) rest := by
  intro name member fresh fragment found
  have different := List.ne_of_not_mem_cons fresh
  have unmet := List.not_mem_of_not_mem_cons fresh
  rw [get?_without different] at found
  exact List.Subset.trans (closed name (onlyFirst name member different) unmet fragment found)
    included

theorem IsClosed.mem_of_reached
    (closed : index.IsClosed way seen)
    (known : pending ⊆ seen)
    (reached : Reached index way pending name) :
    name ∈ seen := by
  induction reached with
  | pending member _ => exact known member
  | spread reached found member _ inductionHypothesis =>
      exact closed _ inductionHypothesis reached.unseen _ found member

theorem IsClosed.below_subset
    (closed : index.IsClosed way seen)
    (isSeen : first ∈ seen)
    (fresh : first ∉ way)
    (found : index.get? first = some body) :
    occurrences (without first index) (first :: way) (spreadNamesOf body.selections) ⊆ seen := by
  have closedInside : (without first index).IsClosed (first :: way) seen :=
    closed.on_way (List.Subset.refl seen) fun _ member _ => member
  intro name below
  exact closedInside.mem_of_reached (closed first isSeen fresh body found)
    (reached_of_mem_occurrences below)

/-- All that a fragment leads to is closed again, together with it and with what was seen before. -/
theorem IsClosed.behind
    (closed : index.IsClosed way seen)
    (onWay : way ⊆ seen)
    (found : index.get? first = some body) :
    index.IsClosed way
      ((firstNames (first :: seen)
          (occurrences (without first index) (first :: way) (spreadNamesOf body.selections))).reverse
        ++ first :: seen) := by
  intro name member fresh fragment isFound later spread
  rw [mem_reverse_firstNames_append_iff, List.mem_cons] at member ⊢
  by_cases passed : later ∈ first :: way
  · exact Or.inr ((List.mem_cons.mp passed).imp_right (onWay ·))
  rcases member with below | rfl | before
  · have different := List.ne_of_not_mem_cons (reached_of_mem_occurrences below).unseen
    rw [← get?_without different] at isFound
    exact Or.inl (mem_occurrences_of_spread below isFound spread passed)
  · rw [found, Option.some.injEq] at isFound
    subst isFound
    exact Or.inl (mem_occurrences_of_mem spread passed)
  · exact Or.inr (Or.inr (closed name before fresh fragment isFound spread))

theorem reach_without
    (isSeen : name ∈ seen) :
    reach (without name index) seen pending = reach index seen pending := by
  apply reach_congr
  intro other reached
  exact get?_without fun same => reached.unseen (same ▸ isSeen)

/-- A step of the search. The index need not shrink, as what was reached is seen. -/
theorem reach_cons (index : FragmentIndex) (seen : List Name) (name : Name) (others : List Name) :
    reach index seen (name :: others) =
      if name ∈ seen then reach index seen others
      else do
        let fragment ← index.require name
        let later ← reach index (name :: seen) (spreadNamesOf fragment.selections ++ others)
        return fragment :: later := by
  by_cases isSeen : name ∈ seen
  · rw [reach, if_pos isSeen, if_pos isSeen]
  · rw [reach, if_neg isSeen, if_neg isSeen, require]
    split
    · next missing => rw [missing]; rfl
    · next fragment found =>
        simp only [found, reach_without List.mem_cons_self]
        rfl

theorem mapM_require_without {names : List Name}
    (absent : name ∉ names) :
    names.mapM (without name index).require = names.mapM index.require := by
  induction names with
  | nil => rfl
  | cons first others inductionHypothesis =>
      have different := List.ne_of_not_mem_cons absent
      have same : (without name index).require first = index.require first := by
        rw [require, require, get?_without (Ne.symm different)]
      rw [List.mapM_cons, List.mapM_cons, same,
        inductionHypothesis (List.not_mem_of_not_mem_cons absent)]

/-- The search when it has gone through some names, of which none was seen before: what the index
gives for them, and what pending spreads reach then. -/
def reachAfter (index : FragmentIndex) (seen names pending : List Name) :
    Except Fault (List Fragment) := do
  let found ← names.mapM index.require
  let later ← reach index (names.reverse ++ seen) pending
  return found ++ later

theorem reachAfter_cons
    (found : index.get? first = some body) (names : List Name) :
    reachAfter index seen (first :: names) pending = (do
      let later ← reachAfter index (first :: seen) names pending
      return body :: later) := by
  have isFirst : index.require first = pure body := require_eq_ok_iff.mpr found
  simp only [reachAfter, List.mapM_cons, isFirst, pure_bind, bind_assoc, List.reverse_cons,
    List.append_assoc, List.cons_append, List.nil_append]

theorem reachAfter_append {names later : List Name}
    (behind : reach index (names.reverse ++ seen) pending =
      reachAfter index (names.reverse ++ seen) later rest) :
    reachAfter index seen names pending = reachAfter index seen (names ++ later) rest := by
  rw [reachAfter, behind]
  simp only [reachAfter, List.mapM_append, pure_bind, bind_assoc, List.reverse_append,
    List.append_assoc]

theorem reachAfter_without {names : List Name}
    (isSeen : name ∈ seen)
    (absent : name ∉ names) :
    reachAfter (without name index) seen names pending = reachAfter index seen names pending := by
  rw [reachAfter, mapM_require_without absent, reach_without (List.mem_append_right _ isSeen),
    reachAfter]

/-- The search goes through what occurs first on the ways from the spreads that it starts from.
The induction is on the ways. -/
theorem reach_append
    (closed : index.IsClosed way seen)
    (onWay : way ⊆ seen) :
    reach index seen (pending ++ rest) =
      reachAfter index seen (firstNames seen (occurrences index way pending)) rest := by
  fun_induction occurrences index way pending generalizing seen rest with
  | case1 index way => simp [firstNames, reachAfter]
  | case2 index way first others passed inductionHypothesis =>
      rw [List.cons_append, reach_cons, if_pos (onWay passed)]
      exact inductionHypothesis closed onWay
  | case3 index way first others fresh missing inductionHypothesis =>
      rw [List.cons_append, reach_cons, firstNames]
      by_cases isSeen : first ∈ seen
      · rw [if_pos isSeen, if_pos isSeen]
        exact inductionHypothesis closed onWay
      · rw [if_neg isSeen, if_neg isSeen, reachAfter, List.mapM_cons, require, missing]
        rfl
  | case4 index way first others fresh body found inside behind =>
      have belowSeen := fun isSeen => closed.below_subset isSeen fresh found
      have closedBehind := closed.behind onWay found
      generalize occurrences (without first index) (first :: way)
        (spreadNamesOf body.selections) = below at inside belowSeen closedBehind ⊢
      rw [List.cons_append, reach_cons, firstNames]
      by_cases isSeen : first ∈ seen
      · -- The search skips a seen fragment, and what it leads to was seen with it.
        rw [if_pos isSeen, if_pos isSeen, firstNames_append, firstNames_eq_nil (belowSeen isSeen)]
        exact behind closed onWay
      · have closedInside := closed.on_way (List.subset_cons_self first seen)
          fun name member different => (List.mem_cons.mp member).resolve_left different
        have wayBehind : way ⊆ (firstNames (first :: seen) below).reverse ++ first :: seen :=
          fun name passed => List.mem_append_right _ (List.mem_cons_of_mem first (onWay passed))
        have absent : first ∉ firstNames (first :: seen) below :=
          fun again => (mem_firstNames_iff.mp again).2 List.mem_cons_self
        have reachInside : reach index (first :: seen)
              (spreadNamesOf body.selections ++ (others ++ rest)) =
            reachAfter index (first :: seen) (firstNames (first :: seen) below)
              (others ++ rest) := by
          rw [← reach_without List.mem_cons_self,
            inside closedInside (List.cons_subset_cons first onWay),
            reachAfter_without List.mem_cons_self absent]
        have isFirst : index.require first = pure body := require_eq_ok_iff.mpr found
        rw [if_neg isSeen, if_neg isSeen, firstNames_append, reachAfter_cons found, isFirst,
          pure_bind, reachInside, reachAfter_append (behind closedBehind wayBehind)]

/-! ## The order of reached fragments -/

theorem order_eq_firstNames (index : FragmentIndex) (root : Fragment) :
    index.order root =
      firstNames [root.name]
        (index.occurrences [root.name] (spreadNamesOf root.selections)) := by
  rw [order, firstNames_eq_eraseDups, List.filter_eq_self.mpr]
  intro name member
  simpa using (reached_of_mem_occurrences member).unseen

theorem nodup_order (index : FragmentIndex) (root : Fragment) :
    (index.order root).Nodup := by
  rw [order_eq_firstNames]
  exact nodup_firstNames _ _

/-- The reachable fragments are what the index gives for the names of the order. -/
theorem reachable_eq_order (index : FragmentIndex) (root : Fragment) :
    index.reachable root = (index.order root).mapM index.require := by
  have closed : index.IsClosed [root.name] [root.name] :=
    fun name isRoot other => absurd isRoot other
  rw [reachable, ← List.append_nil (spreadNamesOf root.selections),
    reach_append closed (List.Subset.refl _), ← order_eq_firstNames, reachAfter, reach]
  cases (index.order root).mapM index.require with
  | error fault => rfl
  | ok found => simp [bind, Except.bind, pure, Except.pure]

theorem mapM_require_eq_ok_iff {names : List Name} :
    names.mapM index.require = .ok included ↔ names.map index.get? = included.map some := by
  induction names generalizing included with
  | nil => cases included <;> simp [pure, Except.pure]
  | cons first others inductionHypothesis =>
      rw [List.mapM_cons]
      constructor
      · intro result
        obtain ⟨body, isFound, behind⟩ := Pipeline.bind_eq_ok_iff.mp result
        obtain ⟨tail, isTail, whole⟩ := Pipeline.bind_eq_ok_iff.mp behind
        cases whole
        rw [List.map_cons, List.map_cons, require_eq_ok_iff.mp isFound,
          inductionHypothesis.mp isTail]
      · intro same
        cases included with
        | nil => cases same
        | cons body tail =>
            obtain ⟨found, behind⟩ := List.cons.inj same
            rw [require_eq_ok_iff.mpr found, inductionHypothesis.mpr behind]
            rfl

theorem exists_missing_of_mapM_require {names : List Name} {fault : Fault}
    (failed : names.mapM index.require = .error fault) :
    ∃ name ∈ names, index.get? name = none := by
  obtain ⟨name, member, isMissing⟩ := Pipeline.exists_failed_of_mapM failed
  refine ⟨name, member, ?_⟩
  cases found : index.get? name with
  | none => rfl
  | some body =>
      rw [require_eq_ok_iff.mpr found] at isMissing
      cases isMissing

theorem reachable_eq_ok_iff :
    index.reachable root = .ok included ↔
      (index.order root).map index.get? = included.map some := by
  rw [reachable_eq_order, mapM_require_eq_ok_iff]

/-! ## Where spreads lead -/

/-- The index in which a fragment stands for its own name. -/
def rooted (index : FragmentIndex) (root : Fragment) : FragmentIndex :=
  (root.name, root) :: index

/-- Whether spreads lead from a fragment to a name other than its own. -/
def Reaches (index : FragmentIndex) (root : Fragment) (name : Name) : Prop :=
  name ≠ root.name ∧ Relation.TransGen (index.rooted root).Spreads root.name name

theorem get?_rooted_self (index : FragmentIndex) (root : Fragment) :
    (index.rooted root).get? root.name = some root := by
  rw [rooted, Table.get?, if_pos rfl]

theorem get?_rooted_of_ne
    (different : name ≠ root.name) :
    (index.rooted root).get? name = index.get? name := by
  rw [rooted, Table.get?, if_neg (Ne.symm different)]

theorem reaches_iff_reached :
    index.Reaches root name ↔
      Reached index [root.name] (spreadNamesOf root.selections) name := by
  constructor
  · rintro ⟨other, leads⟩
    induction leads with
    | single step =>
        obtain ⟨body, found, member⟩ := step
        rw [get?_rooted_self, Option.some.injEq] at found
        subst found
        exact .pending member (by simpa using other)
    | @tail via name before step inductionHypothesis =>
        obtain ⟨body, found, member⟩ := step
        by_cases isRoot : via = root.name
        · -- The way comes back to the start, from where the name is one step.
          rw [isRoot, get?_rooted_self, Option.some.injEq] at found
          subst found
          exact .pending member (by simpa using other)
        · rw [get?_rooted_of_ne isRoot] at found
          exact .spread (inductionHypothesis isRoot) found member (by simpa using other)
  · intro reached
    refine ⟨by simpa using reached.unseen, ?_⟩
    induction reached with
    | pending member _ => exact .single ⟨root, get?_rooted_self index root, member⟩
    | @spread via name body reached found member _ inductionHypothesis =>
        have other : via ≠ root.name := by simpa using reached.unseen
        rw [← get?_rooted_of_ne other] at found
        exact .tail inductionHypothesis ⟨body, found, member⟩

theorem mem_order_iff :
    name ∈ index.order root ↔ index.Reaches root name := by
  rw [order, List.mem_eraseDups, mem_occurrences_iff, reaches_iff_reached]

/-- Only a fragment that is spread and cannot be had keeps the others from being found. -/
theorem exists_reachable_eq_error_iff :
    (∃ fault, index.reachable root = .error fault) ↔
      ∃ name, index.Reaches root name ∧ index.get? name = none := by
  constructor
  · rintro ⟨fault, failed⟩
    rw [reachable_eq_order] at failed
    obtain ⟨name, member, missing⟩ := exists_missing_of_mapM_require failed
    exact ⟨name, mem_order_iff.mp member, missing⟩
  · rintro ⟨name, reaches, missing⟩
    cases result : index.reachable root with
    | error fault => exact ⟨fault, rfl⟩
    | ok included =>
        have given := reachable_eq_ok_iff.mp result
        have among : index.get? name ∈ included.map some := by
          rw [← given]
          exact List.mem_map_of_mem (mem_order_iff.mpr reaches)
        obtain ⟨fragment, _, found⟩ := List.mem_map.mp among
        rw [missing] at found
        cases found

end FragmentIndex

end QueryPaging
