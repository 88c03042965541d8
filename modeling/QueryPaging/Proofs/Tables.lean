import QueryPaging.Table

/-!
# Tables

What is found in a table that was filled entry by entry.

- `get?_groupBy`: a group holds the items of its key, in their order.
- `get?_foldl_putNew`: of several entries for one key the first counts.
- `find?_keys_foldl_push`: keys stand in the order of their first items.
-/

namespace QueryPaging.Table

variable {Key Item : Type} [DecidableEq Key]

/-! ## Keys -/

omit [DecidableEq Key] in
theorem keys_cons (entry : Key × Item) (others : Table Key Item) :
    keys (entry :: others) = entry.1 :: others.keys :=
  rfl

omit [DecidableEq Key] in
theorem keys_append (initial later : Table Key Item) :
    keys (initial ++ later) = initial.keys ++ later.keys :=
  List.map_append

omit [DecidableEq Key] in
theorem nodup_concat {keys : List Key} {key : Key}
    (distinct : keys.Nodup)
    (absent : key ∉ keys) :
    (keys ++ [key]).Nodup := by
  rw [List.nodup_append]
  refine ⟨distinct, by simp, ?_⟩
  intro left present right equality same
  rw [List.mem_singleton] at equality
  exact absent (equality ▸ same ▸ present)

omit [DecidableEq Key] in
/-- A selective change of the entries keeps what keys there are in their order. -/
theorem keys_filterMap_sublist {Result : Type} (change : Key → Item → Option Result)
    (table : Table Key Item) :
    (keys (table.filterMap fun entry => (change entry.1 entry.2).map (entry.1, ·))).Sublist
      table.keys := by
  induction table with
  | nil => exact .slnil
  | cons entry others inductionHypothesis =>
      rw [List.filterMap_cons, keys_cons]
      cases change entry.1 entry.2 with
      | none => exact inductionHypothesis.cons entry.1
      | some result => exact inductionHypothesis.cons_cons entry.1

/-! ## Lookup -/

@[simp]
theorem get?_nil (key : Key) :
    get? key ([] : Table Key Item) = none :=
  rfl

theorem get?_cons (key first : Key) (item : Item) (others : Table Key Item) :
    get? key ((first, item) :: others) = if first = key then some item else get? key others :=
  rfl

theorem get?_append (key : Key) (initial later : Table Key Item) :
    get? key (initial ++ later) = (get? key initial <|> get? key later) := by
  induction initial with
  | nil => rfl
  | cons entry others inductionHypothesis =>
      obtain ⟨first, item⟩ := entry
      rw [List.cons_append, get?_cons, get?_cons]
      by_cases same : first = key
      · rw [if_pos same, if_pos same]
        rfl
      · rw [if_neg same, if_neg same, inductionHypothesis]

theorem put_of_get?_eq_none {table : Table Key Item} {key : Key} (item : Item)
    (free : table.get? key = none) :
    table.put key item = table ++ [(key, item)] := by
  induction table with
  | nil => rfl
  | cons entry others inductionHypothesis =>
      obtain ⟨first, old⟩ := entry
      rw [get?_cons] at free
      by_cases same : first = key
      · rw [if_pos same] at free
        cases free
      · rw [if_neg same] at free
        rw [put, if_neg same, inductionHypothesis free, List.cons_append]

theorem mem_of_get?_eq_some {table : Table Key Item} {key : Key} {item : Item}
    (found : table.get? key = some item) :
    (key, item) ∈ table := by
  induction table with
  | nil => cases found
  | cons entry others inductionHypothesis =>
      obtain ⟨first, value⟩ := entry
      rw [get?_cons] at found
      split at found
      · next same =>
          cases found
          rw [same]
          exact List.mem_cons_self
      · exact List.mem_cons_of_mem _ (inductionHypothesis found)

theorem get?_eq_some_of_mem {table : Table Key Item} {key : Key} {item : Item}
    (distinct : table.keys.Nodup)
    (member : (key, item) ∈ table) :
    table.get? key = some item := by
  induction table with
  | nil => cases member
  | cons entry others inductionHypothesis =>
      obtain ⟨fresh, distinctOthers⟩ := List.nodup_cons.mp distinct
      rw [get?_cons]
      rcases List.mem_cons.mp member with rfl | later
      · rw [if_pos rfl]
      · have different : entry.1 ≠ key := by
          rintro rfl
          exact fresh (List.mem_map.mpr ⟨_, later, rfl⟩)
        rw [if_neg different]
        exact inductionHypothesis distinctOthers later

/-- A key that occurs once is looked up through a selective change of the entries. -/
theorem get?_filterMap {Result : Type} (change : Key → Item → Option Result) (key : Key)
    {table : Table Key Item}
    (distinct : table.keys.Nodup) :
    get? key (table.filterMap fun entry => (change entry.1 entry.2).map (entry.1, ·)) =
      (table.get? key).bind (change key) := by
  induction table with
  | nil => rfl
  | cons entry others inductionHypothesis =>
      obtain ⟨first, item⟩ := entry
      obtain ⟨fresh, distinctOthers⟩ := List.nodup_cons.mp distinct
      have behind := inductionHypothesis distinctOthers
      rw [get?_cons]
      by_cases same : first = key
      · subst same
        have absent : get? first others = none := get?_eq_none_iff.mpr fresh
        rw [absent, Option.bind_none] at behind
        cases changed : change first item with
        | none => simpa [changed] using behind
        | some result => simp [changed, get?_cons]
      · cases changed : change first item with
        | none => simpa [changed, same] using behind
        | some result => simpa [changed, get?_cons, same] using behind

/-- A key that occurs once is looked up through a selection of the entries. -/
theorem get?_filter (keep : Key → Item → Bool) (key : Key) {table : Table Key Item}
    (distinct : table.keys.Nodup) :
    get? key (table.filter fun entry => keep entry.1 entry.2) =
      (table.get? key).filter (keep key) := by
  have selected : (table.filter fun entry => keep entry.1 entry.2) =
      table.filterMap fun entry =>
        ((some entry.2).filter (keep entry.1)).map (entry.1, ·) := by
    rw [← List.filterMap_eq_filter]
    refine congrArg (List.filterMap · table) (funext fun entry => ?_)
    by_cases kept : keep entry.1 entry.2 = true
    · simp [Option.guard, Option.filter, kept]
    · simp [Option.guard, Option.filter, kept]
  rw [selected, get?_filterMap (fun key item => (some item).filter (keep key)) key distinct]
  cases table.get? key <;> rfl

/-- Entries that keep telling their keys apart are looked up through a change of both. -/
theorem get?_map {Renamed Result : Type} [DecidableEq Renamed] {rename : Key → Renamed}
    (injective : ∀ left right, rename left = rename right → left = right)
    (change : Key → Item → Result) (key : Key) (table : Table Key Item) :
    get? (rename key) (table.map fun entry => (rename entry.1, change entry.1 entry.2)) =
      (table.get? key).map (change key) := by
  induction table with
  | nil => rfl
  | cons entry others inductionHypothesis =>
      obtain ⟨first, item⟩ := entry
      rw [List.map_cons, get?_cons, get?_cons]
      by_cases same : first = key
      · subst same
        rw [if_pos rfl, if_pos rfl]
        rfl
      · have different : rename first ≠ rename key := fun equal => same (injective _ _ equal)
        rw [if_neg different, if_neg same, inductionHypothesis]

/-! ## Entering what is new -/

theorem get?_putNew (key other : Key) (item : Item) (table : Table Key Item) :
    (table.putNew key item).get? other =
      (table.get? other <|> if key = other then some item else none) := by
  unfold putNew
  by_cases present : table.has key = true
  · rw [if_pos present]
    by_cases same : key = other
    · subst same
      obtain ⟨value, found⟩ := Option.isSome_iff_exists.mp present
      rw [found]
      rfl
    · rw [if_neg same]
      cases table.get? other <;> rfl
  · rw [if_neg present, get?_append]
    rfl

/-- What was there stays, and of what is entered the first entry of each key counts. -/
theorem get?_foldl_putNew (key : Key) (entries start : Table Key Item) :
    (entries.foldl (fun table entry => putNew entry.1 entry.2 table) start).get? key =
      (start.get? key <|> entries.get? key) := by
  induction entries generalizing start with
  | nil =>
      rw [List.foldl_nil, get?_nil]
      cases start.get? key <;> rfl
  | cons entry others inductionHypothesis =>
      obtain ⟨first, item⟩ := entry
      rw [List.foldl_cons, inductionHypothesis, get?_putNew, get?_cons]
      by_cases same : first = key
      · rw [if_pos same, if_pos same]
        cases start.get? key <;> rfl
      · rw [if_neg same, if_neg same]
        cases start.get? key <;> rfl

theorem keys_putNew (key : Key) (item : Item) (table : Table Key Item) :
    keys (table.putNew key item) =
      if key ∈ table.keys then table.keys else table.keys ++ [key] := by
  unfold putNew
  have present : table.has key = true ↔ key ∈ table.keys := by
    rw [has, Option.isSome_iff_ne_none, ne_eq, get?_eq_none_iff, Classical.not_not]
  by_cases member : key ∈ table.keys
  · rw [if_pos (present.mpr member), if_pos member]
  · rw [if_neg (mt present.mp member), if_neg member, keys_append]
    rfl

theorem nodup_keys_foldl_putNew (entries : Table Key Item) {start : Table Key Item}
    (distinct : start.keys.Nodup) :
    (keys (entries.foldl (fun table entry => putNew entry.1 entry.2 table) start)).Nodup := by
  induction entries generalizing start with
  | nil => exact distinct
  | cons entry others inductionHypothesis =>
      refine inductionHypothesis ?_
      rw [keys_putNew]
      split
      · exact distinct
      · next absent => exact nodup_concat distinct absent

theorem mem_keys_foldl_putNew {key : Key} {entries start : Table Key Item} :
    key ∈ keys (entries.foldl (fun table entry => putNew entry.1 entry.2 table) start) ↔
      key ∈ start.keys ∨ key ∈ entries.keys := by
  have found := get?_foldl_putNew key entries start
  have present : ∀ table : Table Key Item, key ∈ table.keys ↔ table.get? key ≠ none := by
    intro table
    rw [ne_eq, get?_eq_none_iff, Classical.not_not]
  rw [present, present, present, found]
  cases start.get? key <;> simp

/-- Nothing is entered but what is given. -/
theorem mem_of_mem_foldl_putNew {entry : Key × Item} {entries start : Table Key Item}
    (member : entry ∈ entries.foldl (fun table entry => putNew entry.1 entry.2 table) start) :
    entry ∈ start ∨ entry ∈ entries := by
  induction entries generalizing start with
  | nil => exact .inl member
  | cons first others inductionHypothesis =>
      rw [List.foldl_cons, putNew] at member
      rcases inductionHypothesis member with before | later
      · split at before
        · exact .inl before
        · rcases List.mem_append.mp before with old | new
          · exact .inl old
          · exact .inr (List.mem_cons.mpr (.inl (List.mem_singleton.mp new)))
      · exact .inr (List.mem_cons_of_mem _ later)

/-! ## Grouping -/

section Grouping

variable (groups : Table Key (List Item))

theorem get?_push (key other : Key) (item : Item) :
    (groups.push key item).get? other =
      if key = other then some ((groups.get? other).getD [] ++ [item])
      else groups.get? other := by
  induction groups with
  | nil =>
      rw [push, get?_cons]
      rfl
  | cons entry others inductionHypothesis =>
      obtain ⟨first, items⟩ := entry
      rw [push]
      by_cases same : first = key
      · subst same
        rw [if_pos rfl, get?_cons, get?_cons]
        by_cases here : first = other
        · rw [if_pos here, if_pos here, if_pos here]
          rfl
        · rw [if_neg here, if_neg here, if_neg here]
      · rw [if_neg same, get?_cons, get?_cons, inductionHypothesis]
        by_cases here : first = other
        · have elsewhere : key ≠ other := fun equal => same (here.trans equal.symm)
          rw [if_pos here, if_pos here, if_neg elsewhere]
        · rw [if_neg here, if_neg here]

theorem keys_push (key : Key) (item : Item) :
    keys (groups.push key item) =
      if key ∈ groups.keys then groups.keys else groups.keys ++ [key] := by
  induction groups with
  | nil => rfl
  | cons entry others inductionHypothesis =>
      obtain ⟨first, items⟩ := entry
      have parts : keys ((first, items) :: others) = first :: keys others := rfl
      rw [push, parts]
      by_cases same : first = key
      · rw [if_pos same, if_pos (by simp [same])]
        rfl
      · have rest : keys ((first, items) :: push key item others) =
            first :: keys (push key item others) := rfl
        have different : key ≠ first := Ne.symm same
        rw [if_neg same, rest, inductionHypothesis]
        by_cases present : key ∈ keys others
        · rw [if_pos present, if_pos (List.mem_cons_of_mem first present)]
        · rw [if_neg present, if_neg (by simp [different, present]), List.cons_append]

/-- Entering items one by one, each under its own key. -/
def pushAll (entries : List (Key × Item)) : Table Key (List Item) :=
  entries.foldl (fun table entry => push entry.1 entry.2 table) groups

variable (entries : List (Key × Item))

theorem nodup_keys_pushAll
    (distinct : groups.keys.Nodup) :
    (keys (groups.pushAll entries)).Nodup := by
  induction entries generalizing groups with
  | nil => exact distinct
  | cons entry others inductionHypothesis =>
      refine inductionHypothesis _ ?_
      rw [keys_push]
      split
      · exact distinct
      · next absent => exact nodup_concat distinct absent

theorem get?_pushAll (key : Key) :
    (groups.pushAll entries).get? key =
      if (entries.filter (·.1 = key)).isEmpty then groups.get? key
      else some ((groups.get? key).getD [] ++ (entries.filter (·.1 = key)).map (·.2)) := by
  induction entries generalizing groups with
  | nil => rfl
  | cons entry others inductionHypothesis =>
      have step : groups.pushAll (entry :: others) =
          (groups.push entry.1 entry.2).pushAll others := rfl
      rw [step, inductionHypothesis, get?_push]
      by_cases same : entry.1 = key
      · cases rest : others.filter (·.1 = key) <;> simp [same, rest]
      · have skipped : (entry :: others).filter (·.1 = key) = others.filter (·.1 = key) := by
          rw [List.filter_cons_of_neg (by simpa using same)]
        rw [if_neg same, skipped]

/-- The first key with a property is that of the first such item. -/
theorem find?_keys_pushAll (property : Key → Bool) :
    (keys (groups.pushAll entries)).find? property =
      (groups.keys ++ entries.map (·.1)).find? property := by
  induction entries generalizing groups with
  | nil => rw [List.map_nil, List.append_nil]; rfl
  | cons entry others inductionHypothesis =>
      have step : groups.pushAll (entry :: others) =
          (groups.push entry.1 entry.2).pushAll others := rfl
      rw [step, inductionHypothesis, keys_push, List.map_cons]
      split
      · next present =>
          rw [List.find?_append, List.find?_append, List.find?_cons]
          cases holds : property entry.1 with
          | false => rfl
          | true =>
              have found : (groups.keys.find? property).isSome :=
                List.find?_isSome.mpr ⟨entry.1, present, holds⟩
              obtain ⟨key, first⟩ := Option.isSome_iff_exists.mp found
              rw [first]
              rfl
      · rw [List.append_assoc, List.singleton_append]

theorem mem_keys_pushAll {key : Key} :
    key ∈ keys (groups.pushAll entries) ↔ key ∈ groups.keys ∨ key ∈ entries.map (·.1) := by
  have found := find?_keys_pushAll groups entries (fun other => decide (other = key))
  have some_iff : ∀ names : List Key,
      (names.find? fun other => decide (other = key)).isSome ↔ key ∈ names := by
    intro names
    rw [List.find?_isSome]
    simp
  rw [← some_iff, found, some_iff, List.mem_append]

end Grouping

theorem get?_groupBy (keyOf : Item → Key) (items : List Item) (key : Key) :
    (groupBy keyOf items).get? key =
      if (items.filter (keyOf · = key)).isEmpty then none
      else some (items.filter (keyOf · = key)) := by
  have asEntries : groupBy keyOf items = pushAll [] (items.map fun item => (keyOf item, item)) := by
    rw [groupBy, pushAll, List.foldl_map]
  rw [asEntries, get?_pushAll, List.filter_map, List.map_map]
  simp [Function.comp_def]

theorem nodup_keys_groupBy (keyOf : Item → Key) (items : List Item) :
    (keys (groupBy keyOf items)).Nodup := by
  have asEntries : groupBy keyOf items = pushAll [] (items.map fun item => (keyOf item, item)) := by
    rw [groupBy, pushAll, List.foldl_map]
  rw [asEntries]
  exact nodup_keys_pushAll [] _ List.nodup_nil

end QueryPaging.Table
