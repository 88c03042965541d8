import Mathlib.Data.List.Induction
import QueryPaging.Proofs.Places
import QueryPaging.Proofs.Tables

/-!
# Fragments that are reached

Every fragment that another reaches stands in the index, where of several fragments with one name
the last one counts.

- `reachable_of_leaf`: what a fragment reaches that spreads just one other.
- `get?_of_mem_reachable`: reached fragments are the ones that the index gives.
- `exists_last_of_get?_ofFragments`: what the index gives is the last fragment of its name.
-/

namespace QueryPaging.FragmentIndex

variable {index : FragmentIndex} {seen pending : List Name} {name : Name}
  {fragment root : Fragment} {included : List Fragment}

/-! ## Reaching one more -/

theorem reach_of_found (others : List Name)
    (unseen : name ∉ seen)
    (found : index.get? name = some fragment) :
    reach index seen (name :: others) =
      (reach (without name index) (name :: seen)
        (spreadNamesOf fragment.selections ++ others)).map (fragment :: ·) := by
  rw [reach, if_neg unseen]
  split
  · next missing =>
      rw [found] at missing
      cases missing
  · next body isFound =>
      rw [found, Option.some.injEq] at isFound
      subst isFound
      simp only
      cases reach (without name index) (name :: seen)
        (spreadNamesOf fragment.selections ++ others) <;> rfl

/-- A fragment that spreads just one other, which spreads none, reaches just that one. -/
theorem reachable_of_leaf
    (toLeaf : spreadNamesOf root.selections = [name])
    (different : name ≠ root.name)
    (found : index.get? name = some fragment)
    (toNone : spreadNamesOf fragment.selections = []) :
    index.reachable root = .ok [fragment] := by
  have unseen : name ∉ [root.name] := by simpa using different
  rw [reachable, toLeaf, reach_of_found [] unseen found, toNone, List.append_nil, reach]
  rfl

theorem reachable_unplaced (root : Fragment) :
    index.reachable root.unplaced = index.reachable root := by
  have spreads := spreadNamesOf_unplaced root.selections
  rw [reachable, reachable, Fragment.unplaced, spreads]

/-! ## Reached fragments -/

theorem mem_of_mem_reach
    (result : reach index seen pending = .ok included)
    (member : fragment ∈ included) :
    ∃ name, (name, fragment) ∈ index := by
  -- The search goes on in an index that lacks what was reached, so entries are found in all of it.
  fun_induction reach index seen pending generalizing included with
  | case1 index seen =>
      rw [Except.ok.injEq] at result
      subst result
      cases member
  | case2 index seen first others isSeen inductionHypothesis =>
      exact inductionHypothesis result member
  | case3 index seen first others unseen missing => cases result
  | case4 index seen first others unseen body found nested =>
      rename_i inductionHypothesis
      cases later : reach (without first index) (first :: seen) (nested ++ others) with
      | error fault =>
          rw [later] at result
          cases result
      | ok behind =>
          rw [later] at result
          cases result
          rcases List.mem_cons.mp member with rfl | among
          · exact ⟨first, Table.mem_of_get?_eq_some found⟩
          · obtain ⟨name, entered⟩ := inductionHypothesis later among
            exact ⟨name, (List.mem_filter.mp entered).1⟩

theorem nodup_keys_ofFragments (fragments : List Fragment) :
    (Table.keys (ofFragments fragments)).Nodup := by
  induction fragments using List.reverseRecOn with
  | nil => exact List.nodup_nil
  | append_singleton earlier last inductionHypothesis =>
      rw [ofFragments, List.map_append, Table.ofList, List.foldl_append]
      exact Table.nodup_keys_put inductionHypothesis

theorem get?_ofFragments_append (earlier : List Fragment) (last : Fragment) (name : Name) :
    (ofFragments (earlier ++ [last])).get? name =
      if last.name = name then some last else (ofFragments earlier).get? name := by
  rw [ofFragments, List.map_append, Table.ofList, List.foldl_append]
  by_cases same : last.name = name
  · subst same
    rw [if_pos rfl]
    exact Table.get?_put_self _ _ _
  · rw [if_neg same]
    exact Table.get?_put_of_ne _ _ (Ne.symm same)

/-- What the index of some fragments gives is the last fragment of its name. -/
theorem exists_last_of_get?_ofFragments {fragments : List Fragment}
    (found : (ofFragments fragments).get? name = some fragment) :
    fragment.name = name ∧ ∃ before after, fragments = before ++ fragment :: after ∧
      ∀ later ∈ after, later.name ≠ name := by
  induction fragments using List.reverseRecOn with
  | nil => cases found
  | append_singleton earlier last inductionHypothesis =>
      rw [get?_ofFragments_append] at found
      by_cases same : last.name = name
      · rw [if_pos same, Option.some.injEq] at found
        subst found
        exact ⟨same, earlier, [], rfl, by simp⟩
      · rw [if_neg same] at found
        obtain ⟨isNamed, before, after, rfl, later⟩ := inductionHypothesis found
        refine ⟨isNamed, before, after ++ [last], by simp, fun other member => ?_⟩
        rcases List.mem_append.mp member with among | isLast
        · exact later other among
        · rwa [List.mem_singleton.mp isLast]

/-- A fragment that is reached is the last one of its name. -/
theorem exists_last_of_mem_reachable {fragments : List Fragment}
    (result : (ofFragments fragments).reachable root = .ok included)
    (member : fragment ∈ included) :
    ∃ before after, fragments = before ++ fragment :: after ∧
      ∀ later ∈ after, later.name ≠ fragment.name := by
  obtain ⟨name, entered⟩ := mem_of_mem_reach result member
  have distinct := nodup_keys_ofFragments fragments
  have found : (ofFragments fragments).get? name = some fragment :=
    Table.get?_eq_some_of_mem distinct entered
  obtain ⟨rfl, way⟩ := exists_last_of_get?_ofFragments found
  exact way

end QueryPaging.FragmentIndex
