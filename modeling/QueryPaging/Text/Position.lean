/-!
# Places in a text

- `Span` is a half-open range of byte offsets.
- `Position` is a line and a byte column, both counted from zero.
- `LineIndex` turns byte offsets into positions.
-/

namespace QueryPaging

/-- A range of byte offsets, `stop` excluded. -/
structure Span where
  start : Nat
  stop : Nat
deriving DecidableEq

namespace Span

/-- The empty range at one offset. -/
def point (offset : Nat) : Span :=
  ⟨offset, offset⟩

/-- The number of bytes covered, absent when the ends are in the wrong order. -/
def length? (span : Span) : Option Nat :=
  if span.start ≤ span.stop then some (span.stop - span.start) else none

def isEmpty (span : Span) : Bool :=
  span.start == span.stop

def render (span : Span) : String :=
  toString span.start ++ ".." ++ toString span.stop

end Span

/-- A line and a byte column, both counted from zero in 32-bit words. -/
structure Position where
  line : UInt32
  column : UInt32
deriving DecidableEq

namespace Position

/-- Editors count lines and columns from one. -/
def render (position : Position) : String :=
  toString (position.line.toNat + 1) ++ ":" ++ toString (position.column.toNat + 1)

/-- Positions are ordered by line, then by column. -/
def precedes (left right : Position) : Bool :=
  left.line < right.line || (left.line == right.line && left.column < right.column)

end Position

/-! ## Searching -/

def Increasing (items : Array Nat) : Prop :=
  ∀ (i j : Nat) (_ : i < j) (_ : j < items.size), items[i] < items[j]

theorem Increasing.le {items : Array Nat} {i j left right : Nat}
    (increasing : Increasing items)
    (ordered : i ≤ j)
    (here : items[i]? = some left)
    (there : items[j]? = some right) :
    left ≤ right := by
  obtain ⟨before, rfl⟩ := Array.getElem?_eq_some_iff.mp here
  obtain ⟨inside, rfl⟩ := Array.getElem?_eq_some_iff.mp there
  by_cases same : i = j
  · subst same
    exact Nat.le_refl _
  · exact Nat.le_of_lt (increasing i j (by omega) inside)

/-- What comes of a search in an increasing array. -/
inductive SearchResult where
  | found (index : Nat)
  /-- The index that the item would get if it were put in. -/
  | missing (index : Nat)

/-- That all items before an index are less than the target and all behind are greater. -/
structure Separates (items : Array Nat) (target low high : Nat) : Prop where
  below : ∀ (i : Nat) (_ : i < items.size), i < low → items[i] < target
  above : ∀ (i : Nat) (_ : i < items.size), high ≤ i → target < items[i]

/-- Search from `low` up to `high`, each time in one half of what is left. -/
def searchBetween (items : Array Nat) (target low high : Nat) (bound : high ≤ items.size) :
    SearchResult :=
  if left : low < high then
    let middle := low + (high - low) / 2
    have inside : middle < items.size := by omega
    if items[middle] = target then
      .found middle
    else if items[middle] < target then
      searchBetween items target (middle + 1) high bound
    else
      searchBetween items target low middle (by omega)
  else
    .missing low
termination_by high - low

def search (items : Array Nat) (target : Nat) : SearchResult :=
  searchBetween items target 0 items.size (Nat.le_refl _)

theorem getElem?_of_searchBetween_eq_found {items : Array Nat} {target low high index : Nat}
    {bound : high ≤ items.size}
    (result : searchBetween items target low high bound = .found index) :
    items[index]? = some target := by
  fun_induction searchBetween items target low high bound with
  | case1 low high bound left middle inside same =>
      rw [← SearchResult.found.inj result, Array.getElem?_eq_getElem inside, same]
  | case2 low high bound left middle inside differs less inductionHypothesis =>
      exact inductionHypothesis result
  | case3 low high bound left middle inside differs greater inductionHypothesis =>
      exact inductionHypothesis result
  | case4 => cases result

theorem separates_of_searchBetween_eq_missing {items : Array Nat} {target low high index : Nat}
    {bound : high ≤ items.size}
    (increasing : Increasing items)
    (ordered : low ≤ high)
    (separates : Separates items target low high)
    (result : searchBetween items target low high bound = .missing index) :
    index ≤ items.size ∧ Separates items target index index := by
  fun_induction searchBetween items target low high bound with
  | case1 => cases result
  | case2 low high bound left middle inside differs less inductionHypothesis =>
      have ordered : middle + 1 ≤ high := by omega
      refine inductionHypothesis ordered ⟨?_, separates.above⟩ result
      intro i within before
      have upTo := increasing.le (Nat.le_of_lt_succ before) (Array.getElem?_eq_getElem within)
        (Array.getElem?_eq_getElem inside)
      exact Nat.lt_of_le_of_lt upTo less
  | case3 low high bound left middle inside differs greater inductionHypothesis =>
      have ordered : low ≤ middle := by omega
      refine inductionHypothesis ordered ⟨separates.below, ?_⟩ result
      intro i within behind
      have onward := increasing.le behind (Array.getElem?_eq_getElem inside)
        (Array.getElem?_eq_getElem within)
      omega
  | case4 low high bound left =>
      have closed : high = low := by omega
      rw [← SearchResult.missing.inj result]
      rw [closed] at bound separates
      exact ⟨bound, separates⟩

/-! ## Lines -/

def utf8Bytes (text : String) : List UInt8 :=
  text.toUTF8.data.toList

/-- The byte that ends a line. -/
def newline : UInt8 :=
  10

/-- The offsets at which the lines of a text of these bytes begin. -/
def lineStarts (bytes : List UInt8) : List Nat :=
  0 :: (bytes.zipIdx.filter (·.1 == newline)).map (·.2 + 1)

theorem pairwise_lineStarts (bytes : List UInt8) :
    (lineStarts bytes).Pairwise (· < ·) := by
  have inOrder : bytes.zipIdx.Pairwise (·.2 < ·.2) := by
    rw [← List.pairwise_map, List.zipIdx_map_snd]
    exact List.pairwise_lt_range'
  rw [lineStarts, List.pairwise_cons]
  constructor
  · intro start member
    obtain ⟨_, _, rfl⟩ := List.mem_map.mp member
    omega
  · rw [List.pairwise_map]
    exact (inOrder.filter _).imp (Nat.succ_lt_succ ·)

/-- The offsets at which the lines of a text begin, in order, and the text's length. -/
structure LineIndex where
  starts : Array Nat
  size : Nat
  opensAtZero : starts[0]? = some 0
  increasing : Increasing starts

namespace LineIndex

def ofText (text : String) : LineIndex where
  starts := (lineStarts (utf8Bytes text)).toArray
  size := text.utf8ByteSize
  opensAtZero := by simp [lineStarts]
  increasing := by
    intro i j before inside
    exact List.pairwise_iff_getElem.mp (pairwise_lineStarts _) i j _ _ before

def lineCount (index : LineIndex) : Nat :=
  index.starts.size

/-- The number of the line that holds an offset. Where the offset is missing among the beginnings
of lines, this is the line before the place it would get. -/
def line? (index : LineIndex) (offset : Nat) : Option Nat :=
  match search index.starts offset with
  | .found line => some line
  | .missing 0 => none
  | .missing (next + 1) => some next

/-- The position of a byte offset, if there is a line for it and the line begins no later. An offset
past the end counts as the end. -/
def position? (index : LineIndex) (offset : Nat) : Option Position := do
  let clamped := min offset index.size
  let line ← index.line? clamped
  let start ← index.starts[line]?
  let column ← (Span.mk start clamped).length?
  return ⟨UInt32.ofNat line, UInt32.ofNat column⟩

/-- Each offset lies in the last line that begins no later. -/
theorem exists_line (index : LineIndex) (offset : Nat) :
    ∃ line start, index.line? offset = some line ∧ index.starts[line]? = some start ∧
      start ≤ offset ∧ ∀ later next, line < later → index.starts[later]? = some next →
        offset < next := by
  cases result : search index.starts offset with
  | found line =>
      have held := getElem?_of_searchBetween_eq_found result
      obtain ⟨inside, isOffset⟩ := Array.getElem?_eq_some_iff.mp held
      refine ⟨line, offset, by rw [line?, result], held, Nat.le_refl _, ?_⟩
      intro later next behind there
      obtain ⟨bound, rfl⟩ := Array.getElem?_eq_some_iff.mp there
      rw [← isOffset]
      exact index.increasing line later behind bound
  | missing place =>
      have whole : Separates index.starts offset 0 index.starts.size :=
        ⟨fun _ _ before => by omega, fun _ _ behind => by omega⟩
      obtain ⟨bound, separates⟩ := separates_of_searchBetween_eq_missing index.increasing
        (Nat.zero_le _) whole result
      cases place with
      | zero =>
          obtain ⟨inside, isZero⟩ := Array.getElem?_eq_some_iff.mp index.opensAtZero
          have greater := separates.above 0 inside (Nat.le_refl 0)
          omega
      | succ line =>
          have inside : line < index.starts.size := by omega
          have less := separates.below line inside (Nat.lt_succ_self line)
          refine ⟨line, index.starts[line], by rw [line?, result],
            Array.getElem?_eq_getElem inside, Nat.le_of_lt less, ?_⟩
          intro later next behind there
          obtain ⟨bound, rfl⟩ := Array.getElem?_eq_some_iff.mp there
          exact separates.above later bound behind

theorem position?_of_line {index : LineIndex} {offset line start : Nat}
    (isLine : index.line? (min offset index.size) = some line)
    (opens : index.starts[line]? = some start)
    (le : start ≤ min offset index.size) :
    index.position? offset =
      some ⟨UInt32.ofNat line, UInt32.ofNat (min offset index.size - start)⟩ := by
  have column : (Span.mk start (min offset index.size)).length? =
      some (min offset index.size - start) := if_pos le
  simp only [position?, isLine, opens, column, Option.bind_eq_bind, Option.bind_some,
    Option.pure_def]

theorem isSome_position? (index : LineIndex) (offset : Nat) :
    (index.position? offset).isSome = true := by
  obtain ⟨line, start, isLine, opens, le, _⟩ := index.exists_line (min offset index.size)
  rw [position?_of_line isLine opens le]
  rfl

/-- The position of a byte offset. An offset past the end counts as the end. -/
def position (index : LineIndex) (offset : Nat) : Position :=
  (index.position? offset).get (index.isSome_position? offset)

theorem position?_eq (index : LineIndex) (offset : Nat) :
    index.position? offset = some (index.position offset) :=
  (Option.some_get _).symm

end LineIndex

end QueryPaging
