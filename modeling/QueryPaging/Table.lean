/-!
# Tables

A table is a list of keys with their values that remembers the order in which keys were first
entered.

- `put` gives a key a value and keeps its place if it has one.
- `putNew` leaves a key alone that is already there.
- `push` adds an item to the list a key holds.
-/

namespace QueryPaging

/-- Keys with their values, in order of entry. -/
abbrev Table (Key Item : Type) := List (Key × Item)

namespace Table

variable {Key Item : Type} [DecidableEq Key]

/-- The value entered under a key. -/
def get? (key : Key) : Table Key Item → Option Item
  | [] => none
  | (first, item) :: others => if first = key then some item else get? key others

def keys (table : Table Key Item) : List Key :=
  table.map Prod.fst

def has (key : Key) (table : Table Key Item) : Bool :=
  (table.get? key).isSome

/-- Enter a value. A key already there keeps its place and takes the new value. -/
def put (key : Key) (item : Item) : Table Key Item → Table Key Item
  | [] => [(key, item)]
  | (first, old) :: others =>
      if first = key then (first, item) :: others else (first, old) :: put key item others

/-- Enter a value under a key that is not there yet. -/
def putNew (key : Key) (item : Item) (table : Table Key Item) : Table Key Item :=
  if table.has key then table else table ++ [(key, item)]

/-- Enter several values, one after the other. -/
def ofList (entries : List (Key × Item)) : Table Key Item :=
  entries.foldl (fun table entry => put entry.1 entry.2 table) []

/-- Add an item to the end of the list a key holds. -/
def push (key : Key) (item : Item) : Table Key (List Item) → Table Key (List Item)
  | [] => [(key, [item])]
  | (first, items) :: others =>
      if first = key then (first, items ++ [item]) :: others
      else (first, items) :: push key item others

/-- The items grouped by key. Keys stand in the order of their first items, and so do the items
of a key. -/
def groupBy (key : Item → Key) (items : List Item) : Table Key (List Item) :=
  items.foldl (fun groups item => push (key item) item groups) []

@[simp]
theorem get?_put_self (key : Key) (item : Item) (table : Table Key Item) :
    (table.put key item).get? key = some item := by
  induction table with
  | nil => simp [put, get?]
  | cons entry others ih =>
      obtain ⟨first, old⟩ := entry
      by_cases same : first = key
      · simp [put, get?, same]
      · simpa [put, get?, same] using ih

theorem get?_put_of_ne {key other : Key} (item : Item) (table : Table Key Item)
    (different : other ≠ key) :
    (table.put key item).get? other = table.get? other := by
  induction table with
  | nil => simp [put, get?, Ne.symm different]
  | cons entry others ih =>
      obtain ⟨first, old⟩ := entry
      by_cases same : first = key
      · subst same
        simp [put, get?, Ne.symm different]
      · by_cases here : first = other
        · subst here
          simp [put, get?, same]
        · simpa [put, get?, same, here] using ih

theorem keys_put (key : Key) (item : Item) (table : Table Key Item) :
    keys (table.put key item) =
      if key ∈ table.keys then table.keys else table.keys ++ [key] := by
  induction table with
  | nil => simp [put, keys]
  | cons entry others ih =>
      obtain ⟨first, old⟩ := entry
      by_cases same : first = key
      · simp [put, keys, same]
      · have other : key ≠ first := Ne.symm same
        simp only [keys] at ih
        simp only [put, same, if_false, keys, List.map_cons, List.mem_cons, other, false_or, ih]
        split <;> simp_all

theorem get?_eq_none_iff {key : Key} {table : Table Key Item} :
    table.get? key = none ↔ key ∉ table.keys := by
  induction table with
  | nil => simp [get?, keys]
  | cons entry others ih =>
      obtain ⟨first, old⟩ := entry
      by_cases same : first = key
      · simp [get?, keys, same]
      · have other : key ≠ first := Ne.symm same
        simp only [keys] at ih
        simp [get?, keys, same, other, ih]

/-- Keys stay distinct when a value is entered. -/
theorem nodup_keys_put {key : Key} {item : Item} {table : Table Key Item}
    (distinct : table.keys.Nodup) :
    (keys (table.put key item)).Nodup := by
  rw [keys_put]
  split
  · exact distinct
  · next absent =>
      rw [List.nodup_append]
      refine ⟨distinct, by simp, ?_⟩
      intro left present right equality
      simp only [List.mem_singleton] at equality
      subst equality
      intro same
      subst same
      exact absent present

end Table

end QueryPaging
