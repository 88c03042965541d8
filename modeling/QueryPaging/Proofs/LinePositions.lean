import QueryPaging.Text.Position

/-!
# The lines and columns of offsets

The position of an offset counts the line ends before it, and the bytes since the last of them. It
is found by a search in the beginnings of all lines, which are in order and complete.

- `OpensLine`: the beginning of the line that holds an offset.
- `LineIndex.position_isAt`: what the position of each offset is, and how positions are ordered.
-/

namespace QueryPaging

variable {bytes : List UInt8} {start offset : Nat}

/-- That a line begins at `start` and does not end before `offset`. -/
structure OpensLine (bytes : List UInt8) (start offset : Nat) : Prop where
  le : start ≤ offset
  opens : start = 0 ∨ ∃ last, start = last + 1 ∧ bytes[last]? = some newline
  inside : ∀ i, start ≤ i → i < offset → bytes[i]? ≠ some newline

/-- That a position counts the line ends before an offset and the bytes since the last of them, in
32-bit words. -/
structure Position.IsAt (bytes : List UInt8) (offset : Nat) (position : Position) : Prop where
  line : position.line.toNat = (bytes.take offset).count newline % UInt32.size
  column : ∃ start, OpensLine bytes start offset ∧
    position.column.toNat = (offset - start) % UInt32.size

/-! ## Beginnings of lines -/

theorem OpensLine.eq_of_opensLine {other : Nat}
    (opensLine : OpensLine bytes start offset)
    (otherOpens : OpensLine bytes other offset) :
    start = other := by
  have notLess : ∀ {first second : Nat}, OpensLine bytes first offset →
      OpensLine bytes second offset → ¬ first < second := by
    intro first second firstOpens secondOpens less
    rcases secondOpens.opens with zero | ⟨last, isNext, ends⟩
    · omega
    · have before := secondOpens.le
      exact firstOpens.inside last (by omega) (by omega) ends
  have left := notLess opensLine otherOpens
  have right := notLess otherOpens opensLine
  omega

theorem mem_lineStarts_iff :
    start ∈ lineStarts bytes ↔
      start = 0 ∨ ∃ last, start = last + 1 ∧ bytes[last]? = some newline := by
  rw [lineStarts, List.mem_cons, List.mem_map]
  apply or_congr_right
  constructor
  · rintro ⟨⟨byte, last⟩, member, rfl⟩
    obtain ⟨there, isNewline⟩ := List.mem_filter.mp member
    obtain rfl : byte = newline := beq_iff_eq.mp isNewline
    exact ⟨last, rfl, List.mk_mem_zipIdx_iff_getElem?.mp there⟩
  · rintro ⟨last, rfl, ends⟩
    refine ⟨(newline, last), List.mem_filter.mpr ⟨?_, beq_self_eq_true newline⟩, rfl⟩
    exact List.mk_mem_zipIdx_iff_getElem?.mpr ends

/-- Each line end before an offset is followed by the beginning of a line that is no later. -/
theorem countP_zipIdx_starts (bytes : List UInt8) (first offset : Nat) :
    (((bytes.zipIdx first).filter (·.1 == newline)).map (·.2 + 1)).countP (· ≤ offset) =
      (bytes.take (offset - first)).count newline := by
  induction bytes generalizing first with
  | nil => simp
  | cons byte bytes inductionHypothesis =>
      have behind := inductionHypothesis (first + 1)
      rw [List.zipIdx_cons, List.filter_cons]
      by_cases reached : first < offset
      · have more : offset - first = offset - (first + 1) + 1 := by omega
        rw [more, List.take_succ_cons, List.count_cons, ← behind]
        by_cases ends : (byte == newline) = true
        · have within : decide (first + 1 ≤ offset) = true := decide_eq_true reached
          simp only [if_pos ends, List.map_cons, List.countP_cons, within, if_true]
        · simp only [if_neg ends, Nat.add_zero]
      · have noneHere : offset - first = 0 := by omega
        have noneBehind : offset - (first + 1) = 0 := by omega
        rw [noneBehind, List.take_zero, List.count_nil] at behind
        rw [noneHere, List.take_zero, List.count_nil]
        by_cases ends : (byte == newline) = true
        · have beyond : decide (first + 1 ≤ offset) = false := decide_eq_false (by omega)
          simp only [if_pos ends, List.map_cons, List.countP_cons, beyond, behind,
            Bool.false_eq_true, if_false]
        · rw [if_neg ends, behind]

theorem countP_lineStarts (bytes : List UInt8) (offset : Nat) :
    (lineStarts bytes).countP (· ≤ offset) = (bytes.take offset).count newline + 1 := by
  have first : decide (0 ≤ offset) = true := decide_eq_true (Nat.zero_le offset)
  rw [lineStarts, List.countP_cons, countP_zipIdx_starts, Nat.sub_zero]
  simp only [first, if_true]

/-- An item of an increasing array that is the last one within a bound is preceded by all others
within the bound. -/
theorem countP_le_of_last {items : Array Nat} {index item bound : Nat}
    (increasing : Increasing items)
    (there : items[index]? = some item)
    (le : item ≤ bound)
    (last : ∀ later next, index < later → items[later]? = some next → bound < next) :
    items.toList.countP (· ≤ bound) = index + 1 := by
  obtain ⟨inside, _⟩ := Array.getElem?_eq_some_iff.mp there
  have front : (items.toList.take (index + 1)).countP (· ≤ bound) =
      (items.toList.take (index + 1)).length := by
    rw [List.countP_eq_length]
    intro other member
    obtain ⟨place, within, rfl⟩ := List.mem_iff_getElem.mp member
    rw [List.length_take] at within
    rw [List.getElem_take, decide_eq_true_eq]
    have upTo := increasing.le (by omega : place ≤ index)
      (Array.getElem?_eq_getElem (by omega)) there
    exact Nat.le_trans upTo le
  have back : (items.toList.drop (index + 1)).countP (· ≤ bound) = 0 := by
    rw [List.countP_eq_zero]
    intro other member
    obtain ⟨place, within, rfl⟩ := List.mem_iff_getElem.mp member
    rw [List.length_drop] at within
    rw [List.getElem_drop, decide_eq_true_eq, Nat.not_le]
    exact last (index + 1 + place) _ (by omega) (Array.getElem?_eq_getElem _)
  rw [← List.take_append_drop (index + 1) items.toList, List.countP_append, front, back,
    List.length_take, Array.length_toList, Nat.min_eq_left inside]

/-! ## Line ends -/

theorem count_take_le (bytes : List UInt8) {left right : Nat}
    (le : left ≤ right) :
    (bytes.take left).count newline ≤ (bytes.take right).count newline :=
  (List.take_prefix_take_left le).sublist.count_le newline

theorem count_take_lt {left right last : Nat}
    (after : left ≤ last)
    (before : last < right)
    (ends : bytes[last]? = some newline) :
    (bytes.take left).count newline < (bytes.take right).count newline := by
  have upTo := count_take_le bytes after
  have beyond := count_take_le bytes (Nat.succ_le_of_lt before)
  rw [List.take_add_one, ends, List.count_append] at beyond
  have one : (some newline).toList.count newline = 1 := by decide
  omega

/-- While no line ends, the same line goes on. -/
theorem OpensLine.goesOn {left right : Nat}
    (opensLine : OpensLine bytes start left)
    (le : left ≤ right)
    (noEnd : (bytes.take left).count newline = (bytes.take right).count newline) :
    OpensLine bytes start right where
  le := Nat.le_trans opensLine.le le
  opens := opensLine.opens
  inside := by
    intro i after before ends
    by_cases earlier : i < left
    · exact opensLine.inside i after earlier ends
    · have more := count_take_lt (Nat.le_of_not_lt earlier) before ends
      omega

/-! ## Positions -/

namespace LineIndex

/-- The last line that begins no later than an offset does not end before it. -/
theorem opensLine_of_last {text : String} {line : Nat}
    (opens : (ofText text).starts[line]? = some start)
    (le : start ≤ offset)
    (last : ∀ later next, line < later → (ofText text).starts[later]? = some next →
      offset < next) :
    OpensLine (utf8Bytes text) start offset where
  le := le
  opens := by
    apply mem_lineStarts_iff.mp
    rw [ofText, List.getElem?_toArray] at opens
    exact List.mem_of_getElem? opens
  inside := by
    intro i after before ends
    have isStart : i + 1 ∈ lineStarts (utf8Bytes text) :=
      mem_lineStarts_iff.mpr (.inr ⟨i, rfl, ends⟩)
    obtain ⟨later, isNext⟩ := List.mem_iff_getElem?.mp isStart
    rw [← List.getElem?_toArray] at isNext
    by_cases behind : line < later
    · have beyond := last later (i + 1) behind isNext
      omega
    · have upTo := (ofText text).increasing.le (Nat.le_of_not_lt behind) isNext opens
      omega

theorem isAt_position (text : String) (offset : Nat) :
    ((ofText text).position offset).IsAt (utf8Bytes text) (min offset text.utf8ByteSize) := by
  obtain ⟨line, start, isLine, opens, le, last⟩ :=
    (ofText text).exists_line (min offset text.utf8ByteSize)
  have isPosition : (ofText text).position offset =
      ⟨UInt32.ofNat line, UInt32.ofNat (min offset text.utf8ByteSize - start)⟩ :=
    Option.some.inj (((ofText text).position?_eq offset).symm.trans
      (position?_of_line isLine opens le))
  have number := countP_le_of_last (ofText text).increasing opens le last
  rw [ofText, List.toList_toArray, countP_lineStarts] at number
  rw [isPosition]
  constructor
  case line =>
    rw [Nat.add_right_cancel number]
    exact UInt32.toNat_ofNat'
  case column => exact ⟨start, opensLine_of_last opens le last, UInt32.toNat_ofNat'⟩

/-! ## The order of positions -/

variable {text : String}

theorem exists_coordinates (small : text.utf8ByteSize < UInt32.size) (offset : Nat) :
    ∃ start, OpensLine (utf8Bytes text) start (min offset text.utf8ByteSize) ∧
      ((ofText text).position offset).line.toNat =
        ((utf8Bytes text).take (min offset text.utf8ByteSize)).count newline ∧
      ((ofText text).position offset).column.toNat = min offset text.utf8ByteSize - start := by
  obtain ⟨line, start, opensLine, column⟩ := isAt_position text offset
  have counted : ((utf8Bytes text).take (min offset text.utf8ByteSize)).count newline ≤
      min offset text.utf8ByteSize :=
    Nat.le_trans List.count_le_length (List.length_take_le _ _)
  refine ⟨start, opensLine, ?_, ?_⟩
  · rw [line, Nat.mod_eq_of_lt (by omega)]
  · rw [column, Nat.mod_eq_of_lt (by omega)]

/-- Of two offsets on the same line the later one has the greater column, and on different lines
the later one has the greater line. -/
theorem coordinates_of_le (small : text.utf8ByteSize < UInt32.size) {left right : Nat}
    (le : min left text.utf8ByteSize ≤ min right text.utf8ByteSize) :
    ((ofText text).position left).line.toNat < ((ofText text).position right).line.toNat ∨
      ((ofText text).position left).line.toNat = ((ofText text).position right).line.toNat ∧
        ((ofText text).position right).column.toNat =
          ((ofText text).position left).column.toNat +
            (min right text.utf8ByteSize - min left text.utf8ByteSize) := by
  obtain ⟨start, opensLine, line, column⟩ := exists_coordinates small left
  obtain ⟨other, otherOpens, otherLine, otherColumn⟩ := exists_coordinates small right
  have ordered := count_take_le (utf8Bytes text) le
  rw [line, otherLine, column, otherColumn]
  by_cases sameLine : ((utf8Bytes text).take (min left text.utf8ByteSize)).count newline =
      ((utf8Bytes text).take (min right text.utf8ByteSize)).count newline
  · obtain rfl : start = other := (opensLine.goesOn le sameLine).eq_of_opensLine otherOpens
    have before := opensLine.le
    exact .inr ⟨sameLine, by omega⟩
  · exact .inl (Nat.lt_of_le_of_ne ordered sameLine)

/-- A position is found for each offset, by steps that never leave the table of lines and never
subtract the greater from the less: it counts the line ends before the offset and the bytes since
the last of them. In a text of less than 2^32 bytes positions are in the order of their offsets,
and different offsets in the text have different ones. Behind the end there is only the position of
the end. -/
theorem position_isAt (text : String) :
    (∀ offset, (ofText text).position? offset = some ((ofText text).position offset) ∧
        ((ofText text).position offset).IsAt (utf8Bytes text) (min offset text.utf8ByteSize)) ∧
      (text.utf8ByteSize < UInt32.size →
        (∀ left right, left ≤ right →
          ((ofText text).position right).precedes ((ofText text).position left) = false) ∧
        ∀ left right, left ≤ text.utf8ByteSize → right ≤ text.utf8ByteSize →
          (ofText text).position left = (ofText text).position right → left = right) ∧
      ∀ offset, text.utf8ByteSize ≤ offset →
        (ofText text).position offset = (ofText text).position text.utf8ByteSize := by
  refine ⟨fun offset => ⟨position?_eq _ offset, isAt_position text offset⟩, fun small => ⟨?_, ?_⟩,
    ?_⟩
  · intro left right le
    have clamped : min left text.utf8ByteSize ≤ min right text.utf8ByteSize := by omega
    simp only [Position.precedes, Bool.or_eq_false_iff, Bool.and_eq_false_iff,
      decide_eq_false_iff_not, beq_eq_false_iff_ne, UInt32.lt_iff_toNat_lt, ne_eq,
      ← UInt32.toNat_inj]
    rcases coordinates_of_le small clamped with earlier | ⟨sameLine, columns⟩
    · omega
    · omega
  · intro left right leftInside rightInside same
    have earlier : ∀ {first second : Nat}, first ≤ second → second ≤ text.utf8ByteSize →
        (ofText text).position first = (ofText text).position second → first = second := by
      intro first second le inside same
      have clamped : min first text.utf8ByteSize ≤ min second text.utf8ByteSize := by omega
      have coordinates := coordinates_of_le small clamped
      rw [same] at coordinates
      omega
    rcases Nat.le_total left right with le | ge
    · exact earlier le rightInside same
    · exact (earlier ge leftInside same.symm).symm
  · intro offset beyond
    have clamped : (ofText text).position? offset =
        (ofText text).position? text.utf8ByteSize := by
      have size : (ofText text).size = text.utf8ByteSize := rfl
      rw [position?, position?, size, Nat.min_eq_right beyond, Nat.min_self]
    rw [position?_eq, position?_eq] at clamped
    exact Option.some.inj clamped

/-- The end of a line and the beginning of the next one, and offsets behind the last line end. -/
theorem position_isAt_query :
    "query \x7b\n  users\n\x7d\n".utf8ByteSize < UInt32.size ∧
      (ofText "query \x7b\n  users\n\x7d\n").position? 8 = some ⟨1, 0⟩ ∧
      ((ofText "query \x7b\n  users\n\x7d\n").position 8).precedes
        ((ofText "query \x7b\n  users\n\x7d\n").position 7) = false ∧
      (ofText "query \x7b\n  users\n\x7d\n").position 7 ≠
        (ofText "query \x7b\n  users\n\x7d\n").position 8 ∧
      (ofText "query \x7b\n  users\n\x7d\n").position 99 = ⟨3, 0⟩ := by
  obtain ⟨_, ordered, clamps⟩ := position_isAt "query \x7b\n  users\n\x7d\n"
  have small : "query \x7b\n  users\n\x7d\n".utf8ByteSize < UInt32.size := by decide +kernel
  obtain ⟨monotone, injective⟩ := ordered small
  refine ⟨small, by decide +kernel, monotone 7 8 (by decide), ?_, ?_⟩
  · intro same
    exact absurd (injective 7 8 (by decide +kernel) (by decide +kernel) same) (by decide)
  · rw [clamps 99 (by decide +kernel)]
    decide +kernel

end LineIndex

end QueryPaging
