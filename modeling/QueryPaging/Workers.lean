/-!
# Dividing work

A batch is divided into chunks of consecutive items, one chunk for each worker, and the results are
joined in the order of the items.
-/

namespace QueryPaging.Workers

variable {Item Result State : Type}

/-- The items in chunks of `size`, the last of which may be smaller. -/
def chunks (size : Nat) : List Item → List (List Item)
  | [] => []
  | item :: items => (item :: items.take (size - 1)) :: chunks size (items.drop (size - 1))
termination_by items => items.length

/-- The size of a chunk when items are shared evenly, rounded up. -/
def chunkSize (count workers : Nat) : Nat :=
  (count + workers - 1) / workers

/-- The items divided among workers. No workers at all count as one. -/
def split (workers : Nat) (items : List Item) : List (List Item) :=
  let workers := max workers 1
  if workers = 1 ∨ items.length < 2 then [items] else chunks (chunkSize items.length workers) items

/-- Work through one chunk, passing a state along. -/
def workThrough (step : State → Item → Result × State) (state : State) :
    List Item → List Result × State
  | [] => ([], state)
  | item :: items =>
      let (result, state) := step state item
      let (results, state) := workThrough step state items
      (result :: results, state)

/-- Work through chunks in order, passing a state along. -/
def workThroughAll (step : State → Item → Result × State) (state : State) :
    List (List Item) → List Result × State
  | [] => ([], state)
  | chunk :: later =>
      let (results, state) := workThrough step state chunk
      let (others, state) := workThroughAll step state later
      (results ++ others, state)

/-- Map the items over the workers, keeping their order. -/
def map (workers : Nat) (work : Item → Result) (items : List Item) : List Result :=
  (split workers items).flatMap (·.map work)

/-- Map the items over the workers with a state that all of them share. The workers take their
turns in the order of the items. -/
def mapShared (workers : Nat) (step : State → Item → Result × State) (state : State)
    (items : List Item) : List Result × State :=
  workThroughAll step state (split workers items)

theorem flatten_chunks (size : Nat) (items : List Item) :
    (chunks size items).flatten = items := by
  fun_induction chunks size items with
  | case1 => rfl
  | case2 item items ih => simp [ih]

theorem flatten_split (workers : Nat) (items : List Item) :
    (split workers items).flatten = items := by
  unfold split
  simp only
  split
  · simp
  · exact flatten_chunks _ items

end QueryPaging.Workers
