import QueryPaging.Graphql.Reading.Value
import QueryPaging.Proofs.StringText

/-!
# The texts of values

A printed value ends before a comma or a closing parenthesis, however deep it nests, and no two
values that can be written are printed alike.

- `Value.isWritten`: the values that are spelled by some text, as far as their numbers and words go.
- `Value.eq_of_renderAt_append_eq`: the text of a value says where it ends and which value it is.
-/

namespace QueryPaging

/-! ## Values that can be written -/

def opensNumber (c : Char) : Bool :=
  c.isDigit || c == '-'

/-- The characters that introduce a fraction or an exponent. -/
def marksFraction (c : Char) : Bool :=
  ".eE".toList.contains c

def insideNumber (c : Char) : Bool :=
  opensNumber c || c == '+' || marksFraction c

/-- The spelling of a number without a fraction and an exponent. -/
def isWholeText (digits : String) : Bool :=
  !digits.toList.isEmpty && digits.toList.all opensNumber

/-- The spelling of a number with a fraction or an exponent, which opens as one without. -/
def isFractionText (digits : String) : Bool :=
  digits.toList.head?.any opensNumber && digits.toList.all insideNumber
    && digits.toList.any marksFraction

theorem insideNumber_of_opensNumber {c : Char}
    (opens : opensNumber c = true) :
    insideNumber c = true := by
  rw [insideNumber, opens, Bool.true_or, Bool.true_or]

theorem insideNumber_of_marksFraction {c : Char}
    (marks : marksFraction c = true) :
    insideNumber c = true := by
  rw [insideNumber, marks, Bool.or_true]

theorem opensNumber_eq_false_of_marksFraction {c : Char}
    (marks : marksFraction c = true) :
    opensNumber c = false := by
  have among : c = '.' ∨ c = 'e' ∨ c = 'E' := by simpa [marksFraction] using marks
  rcases among with rfl | rfl | rfl <;> decide

/-- Neither a variable nor a name opens like a number. -/
theorem apart_of_opensNumber {c : Char}
    (opens : opensNumber c = true) :
    c ≠ '$' ∧ opensName c = false := by
  rw [opensNumber, Bool.or_eq_true, beq_iff_eq] at opens
  rcases opens with digit | rfl
  · rw [Char.isDigit, Bool.and_eq_true, decide_eq_true_eq, decide_eq_true_eq] at digit
    have low : 0x30 ≤ c.toNat := UInt32.le_iff_toNat_le.mp digit.1
    have high : c.toNat ≤ 0x39 := UInt32.le_iff_toNat_le.mp digit.2
    refine ⟨?_, ?_⟩
    · rintro rfl
      revert low
      decide
    · rw [← Bool.not_eq_true]
      intro opensName
      delta QueryPaging.opensName Char.isAlpha Char.isUpper Char.isLower at opensName
      simp only [Bool.or_eq_true, Bool.and_eq_true, decide_eq_true_eq, beq_iff_eq,
        UInt32.le_iff_toNat_le, ge_iff_le] at opensName
      change ((0x41 ≤ c.toNat ∧ c.toNat ≤ 0x5A) ∨ (0x61 ≤ c.toNat ∧ c.toNat ≤ 0x7A)) ∨ c = '_'
        at opensName
      rcases opensName with (capital | small) | rfl
      · omega
      · omega
      · revert high
        decide
  · decide

namespace Value

open StringLiteral

mutual

/-- Whether the numbers in a value are spelled like numbers, and no enum value like a keyword. -/
def isWritten : Value → Bool
  | .int digits => isWholeText digits
  | .float digits => isFractionText digits
  | .enum name => !(["true", "false", "null"].contains name.text)
  | .list items => areWritten items
  | .object entries => areEntriesWritten entries
  | _ => true

def areWritten : List Value → Bool
  | [] => true
  | item :: items => item.isWritten && areWritten items

def areEntriesWritten : List (Name × Value) → Bool
  | [] => true
  | (_, value) :: entries => value.isWritten && areEntriesWritten entries

end

/-! ## Words -/

/-- The text of a value that is written as one word. -/
def word? : Value → Option String
  | .null => some "null"
  | .boolean truth => some (renderBoolean truth)
  | .int digits => some digits
  | .float digits => some digits
  | .enum name => some name.text
  | .reference name => some ("$" ++ name.text)
  | _ => none

def isWordCharacter (c : Char) : Bool :=
  continuesName c || "$-+.".toList.contains c

theorem renderAt_of_word? {value : Value} {word : String} (level : Nat)
    (isWord : value.word? = some word) :
    value.renderAt level = word := by
  cases value <;> first | (cases isWord; rw [renderAt]) | cases isWord

/-- The value that a word stands for. -/
def ofWord? (word : String) : Option Value :=
  match word.toList with
  | [] => none
  | first :: others =>
      if first = '$' then (Name.ofText? (String.ofList others)).map .reference
      else if opensName first then (Name.ofText? word).map Reader.wordValue
      else if isWholeText word then some (.int word)
      else some (.float word)

theorem ofWord?_of_number {word : String} {first : Char} {others : List Char}
    (characters : word.toList = first :: others)
    (opens : opensNumber first = true) :
    ofWord? word = if isWholeText word then some (.int word) else some (.float word) := by
  obtain ⟨noMark, noName⟩ := apart_of_opensNumber opens
  rw [ofWord?, characters]
  simp only [if_neg noMark, noName, Bool.false_eq_true, if_false]

theorem ofWord?_name (name : Name) :
    ofWord? name.text = some (Reader.wordValue name) := by
  obtain ⟨first, others, characters, opens, _⟩ := toList_eq_cons name
  have noMark : first ≠ '$' := by
    rintro rfl
    revert opens
    decide
  rw [ofWord?, characters]
  simp only [if_neg noMark, opens, if_true, Name.ofText?_text, Option.map_some]

theorem ofWord?_of_word? {value : Value} {word : String}
    (written : value.isWritten = true)
    (isWord : value.word? = some word) :
    ofWord? word = some value := by
  cases value with
  | null => cases isWord; rfl
  | boolean truth => cases truth <;> (cases isWord; rfl)
  | int digits =>
      obtain rfl := Option.some.inj isWord
      rw [isWritten] at written
      have parts := written
      rw [isWholeText, Bool.and_eq_true, List.all_eq_true] at parts
      cases characters : digits.toList with
      | nil => simp [characters] at parts
      | cons first others =>
          have opens := parts.2 first (by rw [characters]; exact List.mem_cons_self)
          rw [ofWord?_of_number characters opens, if_pos written]
  | float digits =>
      obtain rfl := Option.some.inj isWord
      rw [isWritten, isFractionText, Bool.and_eq_true, Bool.and_eq_true] at written
      obtain ⟨⟨opening, -⟩, marked⟩ := written
      cases characters : digits.toList with
      | nil => simp [characters] at opening
      | cons first others =>
          have opens : opensNumber first = true := by simpa [characters] using opening
          have notWhole : ¬ isWholeText digits = true := by
            intro whole
            rw [isWholeText, Bool.and_eq_true, List.all_eq_true] at whole
            obtain ⟨c, member, isMark⟩ := List.any_eq_true.mp marked
            have plain := whole.2 c member
            rw [opensNumber_eq_false_of_marksFraction isMark] at plain
            cases plain
          rw [ofWord?_of_number characters opens, if_neg notWhole]
  | enum name =>
      obtain rfl := Option.some.inj isWord
      rw [isWritten] at written
      rw [ofWord?_name, Reader.wordValue]
      simp only [Bool.not_eq_true', List.contains_eq_mem, decide_eq_false_iff_not, List.mem_cons,
        not_or, List.not_mem_nil, not_false_eq_true, and_true] at written
      rw [if_neg written.1, if_neg written.2.1, if_neg written.2.2]
  | reference name =>
      obtain rfl := Option.some.inj isWord
      have characters : ("$" ++ name.text).toList = '$' :: name.text.toList := by
        rw [String.toList_append]
        rfl
      rw [ofWord?, characters]
      simp only [if_true, String.ofList_toList, Name.ofText?_text, Option.map_some]
  | string _ => cases isWord
  | list _ => cases isWord
  | object _ => cases isWord

theorem isWordCharacter_of_insideNumber {c : Char}
    (inside : insideNumber c = true) :
    isWordCharacter c = true := by
  rw [insideNumber, opensNumber, Bool.or_eq_true, Bool.or_eq_true, Bool.or_eq_true, beq_iff_eq,
    beq_iff_eq] at inside
  rcases inside with ((digit | rfl) | rfl) | marks
  · simp [isWordCharacter, continuesName, Char.isAlphanum, digit]
  · decide
  · decide
  · have among : c = '.' ∨ c = 'e' ∨ c = 'E' := by simpa [marksFraction] using marks
    rcases among with rfl | rfl | rfl <;> decide

/-- A word is made of characters that separate nothing, and there are some. -/
theorem isWordCharacter_of_word? {value : Value} {word : String}
    (written : value.isWritten = true)
    (isWord : value.word? = some word) :
    word.toList ≠ [] ∧ ∀ c ∈ word.toList, isWordCharacter c = true := by
  have ofName : ∀ (name : Name), name.text.toList ≠ [] ∧
      ∀ c ∈ name.text.toList, isWordCharacter c = true := by
    intro name
    obtain ⟨first, others, characters, _⟩ := toList_eq_cons name
    refine ⟨by simp [characters], fun c member => ?_⟩
    rw [isWordCharacter, continuesName_of_mem member, Bool.true_or]
  cases value with
  | null =>
      obtain rfl := Option.some.inj isWord
      exact ofName ⟨"null", by decide⟩
  | boolean truth =>
      obtain rfl := Option.some.inj isWord
      cases truth with
      | true => exact ofName ⟨"true", by decide⟩
      | false => exact ofName ⟨"false", by decide⟩
  | int digits =>
      obtain rfl := Option.some.inj isWord
      rw [isWritten, isWholeText, Bool.and_eq_true, List.all_eq_true] at written
      exact ⟨by simpa using written.1, fun c member =>
        isWordCharacter_of_insideNumber (insideNumber_of_opensNumber (written.2 c member))⟩
  | float digits =>
      obtain rfl := Option.some.inj isWord
      rw [isWritten, isFractionText, Bool.and_eq_true, Bool.and_eq_true, List.all_eq_true]
        at written
      obtain ⟨⟨opening, inside⟩, _⟩ := written
      exact ⟨fun empty => by simp [empty] at opening, fun c member =>
        isWordCharacter_of_insideNumber (inside c member)⟩
  | enum name =>
      obtain rfl := Option.some.inj isWord
      exact ofName name
  | reference name =>
      obtain rfl := Option.some.inj isWord
      rw [String.toList_append]
      refine ⟨by simp, fun c member => ?_⟩
      rcases List.mem_append.mp member with mark | inside
      · obtain rfl := List.mem_singleton.mp mark
        decide
      · exact (ofName name).2 c inside
  | string _ => cases isWord
  | list _ => cases isWord
  | object _ => cases isWord

/-! ## Brackets and braces -/

theorem toList_renderAt_list_nil (level : Nat) :
    (renderAt level (.list [])).toList = ['[', ']'] := by
  rw [renderAt]
  rfl

theorem toList_renderAt_object_nil (level : Nat) :
    (renderAt level (.object [])).toList = ['\x7b', '\x7d'] := by
  rw [renderAt]
  rfl

theorem toList_renderAt_list (level : Nat) (item : Value) (items : List Value) :
    (renderAt level (.list (item :: items))).toList =
      '[' :: ((linesOf (level + 1) (item :: items)).flatMap String.toList
        ++ '\n' :: (indentation level ++ [']'])) := by
  rw [renderAt, String.toList_append, String.toList_append, String.toList_append, toList_join,
    toList_newline]
  simp

theorem toList_renderAt_object (level : Nat) (entry : Name × Value)
    (entries : List (Name × Value)) :
    (renderAt level (.object (entry :: entries))).toList =
      '\x7b' :: ((entryLinesOf (level + 1) (entry :: entries)).flatMap String.toList
        ++ '\n' :: (indentation level ++ ['\x7d'])) := by
  rw [renderAt, String.toList_append, String.toList_append, String.toList_append, toList_join,
    toList_newline]
  simp

theorem flatMap_linesOf_cons (level : Nat) (item : Value) (items : List Value) :
    (linesOf level (item :: items)).flatMap String.toList =
      '\n' :: (indentation level ++ ((item.renderAt level).toList
        ++ ',' :: (linesOf level items).flatMap String.toList)) := by
  rw [linesOf, List.flatMap_cons, String.toList_append, String.toList_append, toList_newline]
  simp

theorem flatMap_entryLinesOf_cons (level : Nat) (name : Name) (value : Value)
    (entries : List (Name × Value)) :
    (entryLinesOf level ((name, value) :: entries)).flatMap String.toList =
      '\n' :: (indentation level ++ (name.text.toList ++ ':' :: ' ' ::
        ((value.renderAt level).toList
          ++ ',' :: (entryLinesOf level entries).flatMap String.toList))) := by
  rw [entryLinesOf, List.flatMap_cons, String.toList_append, String.toList_append,
    String.toList_append, String.toList_append, toList_newline]
  simp

/-! ## Kinds of text -/

/-- How a value is written: as a word, as a string or between brackets or braces. -/
inductive Shape where
  | word
  | string
  | list
  | object
deriving DecidableEq

def shape : Value → Shape
  | .string _ => .string
  | .list _ => .list
  | .object _ => .object
  | _ => .word

/-- The shape of the value that opens with a character. -/
def shapeOf (opening : Char) : Shape :=
  if opening = '"' then .string
  else if opening = '[' then .list
  else if opening = '\x7b' then .object
  else .word

theorem exists_word_of_shape {value : Value}
    (isWord : value.shape = .word) :
    ∃ word, value.word? = some word := by
  cases value <;> first | exact ⟨_, rfl⟩ | cases isWord

theorem exists_string_of_shape {value : Value}
    (isString : value.shape = .string) :
    ∃ text, value = .string text := by
  cases value <;> first | exact ⟨_, rfl⟩ | cases isString

theorem exists_list_of_shape {value : Value}
    (isList : value.shape = .list) :
    ∃ items, value = .list items := by
  cases value <;> first | exact ⟨_, rfl⟩ | cases isList

theorem exists_object_of_shape {value : Value}
    (isObject : value.shape = .object) :
    ∃ entries, value = .object entries := by
  cases value <;> first | exact ⟨_, rfl⟩ | cases isObject

/-- What a value opens with tells its shape. -/
theorem exists_toList_renderAt {value : Value} (level : Nat)
    (written : value.isWritten = true) :
    ∃ opening more, (value.renderAt level).toList = opening :: more ∧
      value.shape = shapeOf opening := by
  have ofWord : value.shape = .word → ∃ opening more,
      (value.renderAt level).toList = opening :: more ∧ Shape.word = shapeOf opening := by
    intro isWord
    obtain ⟨word, found⟩ := exists_word_of_shape isWord
    obtain ⟨nonempty, inside⟩ := isWordCharacter_of_word? written found
    obtain ⟨opening, more, characters⟩ := List.exists_cons_of_ne_nil nonempty
    refine ⟨opening, more, by rw [renderAt_of_word? level found, characters], ?_⟩
    have isInside := inside opening (by rw [characters]; exact List.mem_cons_self)
    rw [shapeOf, if_neg, if_neg, if_neg]
    all_goals
      rintro rfl
      revert isInside
      decide
  cases value with
  | string text =>
      rw [renderAt]
      rcases toList_renderText_cases level text with quoted | ⟨_, block⟩
      · exact ⟨_, _, quoted, rfl⟩
      · exact ⟨_, _, block, rfl⟩
  | list items =>
      cases items with
      | nil => exact ⟨_, _, toList_renderAt_list_nil level, rfl⟩
      | cons item items => exact ⟨_, _, toList_renderAt_list level item items, rfl⟩
  | object entries =>
      cases entries with
      | nil => exact ⟨_, _, toList_renderAt_object_nil level, rfl⟩
      | cons entry entries => exact ⟨_, _, toList_renderAt_object level entry entries, rfl⟩
  | _ => exact ofWord rfl

/-! ## Where a value ends -/

/-- Whether a value may end before a text: nothing, or what opens with a comma or a parenthesis. -/
def EndsValue (rest : List Char) : Prop :=
  ∀ c ∈ rest.head?, c = ',' ∨ c = ')'

theorem EndsValue.comma (rest : List Char) :
    EndsValue (',' :: rest) := by
  intro c first
  exact .inl (Option.some.inj first).symm

theorem EndsValue.not_word {rest : List Char}
    (ends : EndsValue rest) :
    ∀ c ∈ rest.head?, isWordCharacter c = false := by
  intro c first
  rcases ends c first with rfl | rfl <;> decide

theorem EndsValue.not_quote {rest : List Char}
    (ends : EndsValue rest) :
    rest.head? ≠ some '"' := by
  intro first
  rcases ends '"' first with same | same <;> cases same

/-- The first lines of a bracket's inside and its closing line have different indentations. -/
theorem line_append_ne_closing {level : Nat} {closing : Char} {line rest : List Char}
    (visible : closing ≠ ' ') :
    '\n' :: (indentation (level + 1) ++ line) ≠ '\n' :: (indentation level ++ closing :: rest) := by
  intro same
  have deeper : indentation (level + 1) = indentation level ++ [' ', ' '] := by
    rw [indentation, indentation, Nat.mul_add, ← List.replicate_append_replicate]
    rfl
  rw [deeper, List.append_assoc] at same
  have inside := List.append_cancel_left (List.cons.inj same).2
  exact visible (List.cons.inj inside).1.symm

theorem eq_of_name_append_eq {left right : Name} {rest after : List Char}
    (same : left.text.toList ++ ':' :: rest = right.text.toList ++ ':' :: after) :
    left = right ∧ rest = after := by
  have colon : ∀ rest : List Char, ∀ c ∈ (':' :: rest).head?, continuesName c = false := by
    intro rest c first
    obtain rfl := Option.some.inj first
    decide
  obtain ⟨sameText, behind⟩ := eq_of_boundary_append_eq (fun _ => continuesName_of_mem)
    (fun _ => continuesName_of_mem) (colon rest) (colon after) same
  exact ⟨Name.eq_of_text_eq (String.toList_inj.mp sameText), (List.cons.inj behind).2⟩

theorem eq_of_word_append_eq {value other : Value} {level : Nat} {rest after : List Char}
    (written : value.isWritten = true)
    (otherWritten : other.isWritten = true)
    (isWord : value.shape = .word)
    (isOtherWord : other.shape = .word)
    (ends : EndsValue rest)
    (afterEnds : EndsValue after)
    (same : (value.renderAt level).toList ++ rest = (other.renderAt level).toList ++ after) :
    value = other ∧ rest = after := by
  obtain ⟨word, found⟩ := exists_word_of_shape isWord
  obtain ⟨otherWord, otherFound⟩ := exists_word_of_shape isOtherWord
  rw [renderAt_of_word? level found, renderAt_of_word? level otherFound] at same
  obtain ⟨sameWord, behind⟩ := eq_of_boundary_append_eq (isWordCharacter_of_word? written found).2
    (isWordCharacter_of_word? otherWritten otherFound).2 ends.not_word afterEnds.not_word same
  have read := ofWord?_of_word? written found
  rw [String.toList_inj.mp sameWord, ofWord?_of_word? otherWritten otherFound] at read
  exact ⟨(Option.some.inj read).symm, behind⟩

mutual

/-- The text of a value says where it ends and which value it is. -/
theorem eq_of_renderAt_append_eq (value : Value) {other : Value} {level : Nat}
    {rest after : List Char}
    (written : value.isWritten = true)
    (otherWritten : other.isWritten = true)
    (ends : EndsValue rest)
    (afterEnds : EndsValue after)
    (same : (value.renderAt level).toList ++ rest = (other.renderAt level).toList ++ after) :
    value = other ∧ rest = after := by
  -- Both texts open with one character, which leaves values of one shape to compare.
  have sameShape : value.shape = other.shape := by
    obtain ⟨opening, more, characters, isShape⟩ := exists_toList_renderAt level written
    obtain ⟨otherOpening, otherMore, otherCharacters, isOtherShape⟩ :=
      exists_toList_renderAt level otherWritten
    rw [characters, otherCharacters] at same
    rw [isShape, isOtherShape, (List.cons.inj same).1]
  match value with
  | .string text =>
      obtain ⟨otherText, rfl⟩ := exists_string_of_shape sameShape.symm
      rw [renderAt, renderAt] at same
      obtain ⟨rfl, ended⟩ := eq_of_renderText_append_eq ends.not_quote afterEnds.not_quote same
      exact ⟨rfl, ended⟩
  | .list [] =>
      obtain ⟨others, rfl⟩ := exists_list_of_shape sameShape.symm
      cases others with
      | nil => exact ⟨rfl, List.append_cancel_left same⟩
      | cons other others =>
          rw [toList_renderAt_list_nil, toList_renderAt_list, flatMap_linesOf_cons] at same
          cases (List.cons.inj (List.cons.inj same).2).1
  | .list (item :: items) =>
      obtain ⟨others, rfl⟩ := exists_list_of_shape sameShape.symm
      rw [toList_renderAt_list] at same
      cases others with
      | nil =>
          rw [toList_renderAt_list_nil, flatMap_linesOf_cons] at same
          cases (List.cons.inj (List.cons.inj same).2).1
      | cons other others =>
          rw [toList_renderAt_list] at same
          simp only [List.cons_append, List.append_assoc, List.nil_append, List.cons.injEq,
            true_and] at same
          rw [isWritten] at written otherWritten
          obtain ⟨alike, ended⟩ :=
            eq_of_linesOf_append_eq (item :: items) written otherWritten (by decide) same
          exact ⟨by rw [alike], ended⟩
  | .object [] =>
      obtain ⟨others, rfl⟩ := exists_object_of_shape sameShape.symm
      cases others with
      | nil => exact ⟨rfl, List.append_cancel_left same⟩
      | cons other others =>
          rw [toList_renderAt_object_nil, toList_renderAt_object, flatMap_entryLinesOf_cons]
            at same
          cases (List.cons.inj (List.cons.inj same).2).1
  | .object (entry :: entries) =>
      obtain ⟨others, rfl⟩ := exists_object_of_shape sameShape.symm
      rw [toList_renderAt_object] at same
      cases others with
      | nil =>
          rw [toList_renderAt_object_nil, flatMap_entryLinesOf_cons] at same
          cases (List.cons.inj (List.cons.inj same).2).1
      | cons other others =>
          rw [toList_renderAt_object] at same
          simp only [List.cons_append, List.append_assoc, List.nil_append, List.cons.injEq,
            true_and] at same
          rw [isWritten] at written otherWritten
          obtain ⟨alike, ended⟩ :=
            eq_of_entryLinesOf_append_eq (entry :: entries) written otherWritten (by decide) same
          exact ⟨by rw [alike], ended⟩
  | .null => exact eq_of_word_append_eq written otherWritten rfl sameShape.symm ends afterEnds same
  | .boolean _ =>
      exact eq_of_word_append_eq written otherWritten rfl sameShape.symm ends afterEnds same
  | .int _ => exact eq_of_word_append_eq written otherWritten rfl sameShape.symm ends afterEnds same
  | .float _ =>
      exact eq_of_word_append_eq written otherWritten rfl sameShape.symm ends afterEnds same
  | .enum _ =>
      exact eq_of_word_append_eq written otherWritten rfl sameShape.symm ends afterEnds same
  | .reference _ =>
      exact eq_of_word_append_eq written otherWritten rfl sameShape.symm ends afterEnds same

/-- The lines of a list end where its bracket is closed. -/
theorem eq_of_linesOf_append_eq (items : List Value) {others : List Value} {level : Nat}
    {closing : Char} {rest after : List Char}
    (written : areWritten items = true)
    (othersWritten : areWritten others = true)
    (visible : closing ≠ ' ')
    (same : (linesOf (level + 1) items).flatMap String.toList
        ++ '\n' :: (indentation level ++ closing :: rest) =
      (linesOf (level + 1) others).flatMap String.toList
        ++ '\n' :: (indentation level ++ closing :: after)) :
    items = others ∧ rest = after := by
  cases items with
  | nil =>
      cases others with
      | nil =>
          have behind := List.append_cancel_left (List.cons.inj same).2
          exact ⟨rfl, (List.cons.inj behind).2⟩
      | cons other others =>
          rw [flatMap_linesOf_cons, List.cons_append, List.append_assoc] at same
          exact absurd same.symm (line_append_ne_closing visible)
  | cons item items =>
      cases others with
      | nil =>
          rw [flatMap_linesOf_cons, List.cons_append, List.append_assoc] at same
          exact absurd same (line_append_ne_closing visible)
      | cons other others =>
          rw [areWritten, Bool.and_eq_true] at written othersWritten
          rw [flatMap_linesOf_cons, flatMap_linesOf_cons, List.cons_append, List.cons_append,
            List.append_assoc, List.append_assoc, List.append_assoc, List.append_assoc] at same
          have behind := List.append_cancel_left (List.cons.inj same).2
          obtain ⟨alike, more⟩ := eq_of_renderAt_append_eq item written.1 othersWritten.1
            (.comma _) (.comma _) behind
          obtain ⟨alikeItems, ended⟩ := eq_of_linesOf_append_eq items written.2 othersWritten.2
            visible (List.cons.inj more).2
          exact ⟨by rw [alike, alikeItems], ended⟩

/-- The lines of an object end where its brace is closed. -/
theorem eq_of_entryLinesOf_append_eq (entries : List (Name × Value))
    {others : List (Name × Value)} {level : Nat} {closing : Char} {rest after : List Char}
    (written : areEntriesWritten entries = true)
    (othersWritten : areEntriesWritten others = true)
    (visible : closing ≠ ' ')
    (same : (entryLinesOf (level + 1) entries).flatMap String.toList
        ++ '\n' :: (indentation level ++ closing :: rest) =
      (entryLinesOf (level + 1) others).flatMap String.toList
        ++ '\n' :: (indentation level ++ closing :: after)) :
    entries = others ∧ rest = after := by
  cases entries with
  | nil =>
      cases others with
      | nil =>
          have behind := List.append_cancel_left (List.cons.inj same).2
          exact ⟨rfl, (List.cons.inj behind).2⟩
      | cons other others =>
          rw [flatMap_entryLinesOf_cons, List.cons_append, List.append_assoc] at same
          exact absurd same.symm (line_append_ne_closing visible)
  | cons entry entries =>
      obtain ⟨name, value⟩ := entry
      cases others with
      | nil =>
          rw [flatMap_entryLinesOf_cons, List.cons_append, List.append_assoc] at same
          exact absurd same (line_append_ne_closing visible)
      | cons other others =>
          obtain ⟨otherName, otherValue⟩ := other
          rw [areEntriesWritten, Bool.and_eq_true] at written othersWritten
          simp only [flatMap_entryLinesOf_cons, List.cons_append, List.append_assoc] at same
          have line := List.append_cancel_left (List.cons.inj same).2
          obtain ⟨rfl, behind⟩ := eq_of_name_append_eq line
          obtain ⟨alike, more⟩ := eq_of_renderAt_append_eq value written.1 othersWritten.1
            (.comma _) (.comma _) (List.cons.inj behind).2
          obtain ⟨alikeEntries, ended⟩ := eq_of_entryLinesOf_append_eq entries written.2
            othersWritten.2 visible (List.cons.inj more).2
          exact ⟨by rw [alike, alikeEntries], ended⟩

end

end Value

end QueryPaging
