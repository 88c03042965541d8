import QueryPaging.Proofs.ValueText

/-!
# What is read is spelled

The tokens of a text are spelled like numbers where they say that they are, and so are the numbers
in all values that are read from them.

- `Token.isSpelled_of_ofText?`: all tokens of a text are spelled.
- `Reader.Gives`: what a reader gives when it starts before spelled tokens.
- `Reader.written_of_run_arguments`: the values of all arguments that are read are written.
-/

namespace QueryPaging

/-! ## Tokens -/

namespace Lexeme

def isSpelled : Lexeme → Bool
  | .int digits => isWholeText digits
  | .float digits => isFractionText digits
  | _ => true

end Lexeme

namespace Token

theorem digits_of_someDigits? {cs digits : List Char}
    (found : someDigits? cs = some digits) :
    digits ≠ [] ∧ ∀ c ∈ digits, c.isDigit = true := by
  simp only [someDigits?] at found
  split at found
  · cases found
  · next nonempty =>
      obtain rfl := Option.some.inj found
      refine ⟨by simpa using nonempty, fun c member => ?_⟩
      exact List.all_eq_true.mp List.all_takeWhile c member

theorem digits_of_wholePart? {cs digits : List Char}
    (found : wholePart? cs = some digits) :
    digits ≠ [] ∧ ∀ c ∈ digits, c.isDigit = true := by
  unfold wholePart? at found
  rw [Option.bind_eq_bind, Option.bind_eq_some_iff] at found
  obtain ⟨taken, isTaken, fits⟩ := found
  split at fits
  · cases fits
  · obtain rfl := Option.some.inj fits
    exact digits_of_someDigits? isTaken

/-- A fraction and an exponent are either left out or introduced by their mark. -/
structure IsFractionPart (written : List Char) : Prop where
  inside : ∀ c ∈ written, insideNumber c = true
  marked : written ≠ [] → written.any marksFraction = true

theorem IsFractionPart.nil :
    IsFractionPart [] :=
  ⟨List.forall_mem_nil _, fun nonempty => absurd rfl nonempty⟩

theorem IsFractionPart.cons {mark : Char} {written : List Char}
    (marks : marksFraction mark = true)
    (inside : ∀ c ∈ written, insideNumber c = true) :
    IsFractionPart (mark :: written) where
  inside c member := by
    rcases List.mem_cons.mp member with rfl | later
    · exact insideNumber_of_marksFraction marks
    · exact inside c later
  marked _ := by rw [List.any_cons, marks, Bool.true_or]

theorem opensNumber_of_isDigit {c : Char}
    (digit : c.isDigit = true) :
    opensNumber c = true := by
  rw [opensNumber, digit, Bool.true_or]

theorem insideNumber_of_isDigit {c : Char}
    (digit : c.isDigit = true) :
    insideNumber c = true :=
  insideNumber_of_opensNumber (opensNumber_of_isDigit digit)

theorem isFractionPart_of_fraction? {cs written : List Char}
    (found : fraction? cs = some written) :
    IsFractionPart written := by
  unfold fraction? at found
  split at found
  · rw [Option.bind_eq_bind, Option.bind_eq_some_iff] at found
    obtain ⟨digits, isDigits, isWritten⟩ := found
    obtain rfl := Option.some.inj isWritten
    exact .cons (by decide) fun c member =>
      insideNumber_of_isDigit ((digits_of_someDigits? isDigits).2 c member)
  · obtain rfl := Option.some.inj found
    exact .nil

theorem isFractionPart_of_exponent? {cs written : List Char}
    (found : exponent? cs = some written) :
    IsFractionPart written := by
  unfold exponent? at found
  split at found
  · obtain rfl := Option.some.inj found
    exact .nil
  · split at found
    · next opens =>
        simp only [Option.bind_eq_bind, Option.bind_eq_some_iff] at found
        obtain ⟨digits, isDigits, isWritten⟩ := found
        obtain rfl := Option.some.inj isWritten
        refine .cons (by rcases opens with rfl | rfl <;> decide) fun c member => ?_
        rcases List.mem_append.mp member with sign | digit
        · have among : c = '+' ∨ c = '-' := by simpa using (List.mem_filter.mp sign).2
          rcases among with rfl | rfl <;> decide
        · exact insideNumber_of_isDigit ((digits_of_someDigits? isDigits).2 c digit)
    · obtain rfl := Option.some.inj found
      exact .nil

theorem isWholeText_ofList {integral : List Char}
    (nonempty : integral ≠ [])
    (opens : ∀ c ∈ integral, opensNumber c = true) :
    isWholeText (String.ofList integral) = true := by
  rw [isWholeText, String.toList_ofList, Bool.and_eq_true, List.all_eq_true]
  exact ⟨by simpa using nonempty, opens⟩

theorem isFractionText_ofList {integral fraction exponent : List Char}
    (nonempty : integral ≠ [])
    (opens : ∀ c ∈ integral, opensNumber c = true)
    (ofFraction : IsFractionPart fraction)
    (ofExponent : IsFractionPart exponent)
    (marked : fraction ≠ [] ∨ exponent ≠ []) :
    isFractionText (String.ofList (integral ++ fraction ++ exponent)) = true := by
  obtain ⟨first, others, rfl⟩ := List.exists_cons_of_ne_nil nonempty
  rw [isFractionText, String.toList_ofList, Bool.and_eq_true, Bool.and_eq_true, List.all_eq_true]
  refine ⟨⟨opens first List.mem_cons_self, fun c member => ?_⟩, ?_⟩
  · rw [List.mem_append, List.mem_append] at member
    rcases member with (inside | inside) | inside
    · exact insideNumber_of_opensNumber (opens c inside)
    · exact ofFraction.inside c inside
    · exact ofExponent.inside c inside
  · rw [List.any_append, List.any_append, Bool.or_eq_true, Bool.or_eq_true]
    rcases marked with some | some
    · exact .inl (.inr (ofFraction.marked some))
    · exact .inr (ofExponent.marked some)

/-- A number that opens a text is spelled like one. -/
theorem isSpelled_of_number? {cs : List Char} {lexeme : Lexeme} {count : Nat}
    (found : number? cs = some (lexeme, count)) :
    lexeme.isSpelled = true := by
  unfold number? at found
  simp only [Option.bind_eq_bind, Option.bind_eq_some_iff] at found
  obtain ⟨whole, isWhole, fraction, isFraction, exponent, isExponent, found⟩ := found
  obtain ⟨someWhole, wholeDigits⟩ := digits_of_wholePart? isWhole
  have opens : ∀ c ∈ (cs.take 1).filter (· == '-') ++ whole, opensNumber c = true := by
    intro c member
    rcases List.mem_append.mp member with sign | digit
    · rw [opensNumber, (List.mem_filter.mp sign).2, Bool.or_true]
    · exact opensNumber_of_isDigit (wholeDigits c digit)
  generalize isIntegral : (cs.take 1).filter (· == '-') ++ whole = integral at *
  have nonempty : integral ≠ [] := by
    rw [← isIntegral]
    exact fun empty => someWhole (List.append_eq_nil_iff.mp empty).2
  have spelled : Lexeme.isSpelled (if fraction.isEmpty && exponent.isEmpty then
      Lexeme.int (String.ofList (integral ++ fraction ++ exponent))
      else .float (String.ofList (integral ++ fraction ++ exponent))) = true := by
    split
    · next empty =>
        rw [Bool.and_eq_true, List.isEmpty_iff, List.isEmpty_iff] at empty
        rw [empty.1, empty.2, List.append_nil, List.append_nil]
        exact isWholeText_ofList nonempty opens
    · next marked =>
        rw [Bool.and_eq_true, List.isEmpty_iff, List.isEmpty_iff, Decidable.not_and_iff_or_not]
          at marked
        exact isFractionText_ofList nonempty opens (isFractionPart_of_fraction? isFraction)
          (isFractionPart_of_exponent? isExponent) marked
  split at found
  · split at found
    · cases found
    · obtain ⟨rfl, -⟩ := Prod.mk.inj (Option.some.inj found)
      exact spelled
  · obtain ⟨rfl, -⟩ := Prod.mk.inj (Option.some.inj found)
    exact spelled

theorem isSpelled_of_string? {rest : List Char} {lexeme : Lexeme} {count : Nat}
    (found : string? rest = some (lexeme, count)) :
    lexeme.isSpelled = true := by
  unfold string? at found
  split at found
  all_goals
    simp only [Option.bind_eq_bind, Option.bind_eq_some_iff, Option.pure_def, Option.some.injEq,
      Prod.mk.injEq] at found
  · obtain ⟨_, _, rfl, _⟩ := found
    rfl
  · obtain ⟨_, _, _, _, rfl, _⟩ := found
    rfl

theorem isSpelled_of_lexeme? {first : Char} {rest : List Char} {lexeme : Lexeme} {count : Nat}
    (found : lexeme? first rest = some (lexeme, count)) :
    lexeme.isSpelled = true := by
  unfold lexeme? at found
  split at found
  · obtain ⟨rfl, -⟩ := Prod.mk.inj (Option.some.inj found)
    rfl
  split at found
  · simp only [Option.bind_eq_bind, Option.bind_eq_some_iff, Option.pure_def, Option.some.injEq,
      Prod.mk.injEq] at found
    obtain ⟨_, _, rfl, _⟩ := found
    rfl
  split at found
  · exact isSpelled_of_string? found
  split at found
  · split at found
    · obtain ⟨rfl, -⟩ := Prod.mk.inj (Option.some.inj found)
      rfl
    · cases found
  · simp only [Option.bind_eq_bind, Option.bind_eq_some_iff, Option.pure_def, Option.some.injEq,
      Prod.mk.injEq, Prod.exists] at found
    obtain ⟨_, _, isNumber, rfl, _⟩ := found
    exact isSpelled_of_number? isNumber

theorem isSpelled_of_ofChars? {offset : Nat} {followsComma : Bool} {cs : List Char}
    {tokens : List Token}
    (split : ofChars? offset followsComma cs = some tokens) :
    ∀ token ∈ tokens, token.lexeme.isSpelled = true := by
  induction offset, followsComma, cs using ofChars?.induct generalizing tokens with
  | case1 =>
      rw [ofChars?] at split
      obtain rfl := Option.some.inj split
      exact List.forall_mem_nil _
  | case2 offset followsComma first rest ignored inductionHypothesis =>
      rw [ofChars?, if_pos ignored] at split
      exact inductionHypothesis split
  | case3 offset followsComma rest comment notIgnored =>
      rename_i inductionHypothesis
      rw [ofChars?, if_neg notIgnored, if_pos rfl] at split
      exact inductionHypothesis split
  | case4 offset followsComma first rest notIgnored noComment inductionHypothesis =>
      rw [ofChars?, if_neg notIgnored, if_neg noComment] at split
      simp only [Option.bind_eq_bind, Option.bind_eq_some_iff, Option.pure_def, Option.some.injEq,
        Prod.exists] at split
      obtain ⟨lexeme, count, found, later, isLater, rfl⟩ := split
      intro token member
      rcases List.mem_cons.mp member with rfl | among
      · exact isSpelled_of_lexeme? found
      · exact inductionHypothesis count isLater token among

/-- All tokens of a text are spelled. -/
theorem isSpelled_of_ofText? {text : String} {tokens : List Token}
    (split : ofText? text = some tokens) :
    ∀ token ∈ tokens, token.lexeme.isSpelled = true :=
  isSpelled_of_ofChars? split

end Token

/-! ## Readers -/

/-- Whether all tokens that are left are spelled. -/
def Cursor.IsSpelled (cursor : Cursor) : Prop :=
  ∀ token ∈ cursor.rest, token.lexeme.isSpelled = true

namespace Reader

variable {α β : Type}

/-- A reader gives only what has a property, as long as it starts before spelled tokens, and it
leaves spelled tokens behind. -/
def Gives (good : α → Prop) (reader : Reader α) : Prop :=
  ∀ cursor result after, cursor.IsSpelled →
    StateT.run reader cursor = some (result, after) →
    good result ∧ after.IsSpelled

/-- A reader of which nothing is asked. -/
abbrev Leaves (reader : Reader α) : Prop :=
  Gives (fun _ => True) reader

namespace Gives

variable {good : α → Prop} {fine : β → Prop} {reader : Reader α}

theorem result {value : α} (isGood : good value) :
    Gives good (pure value : Reader α) := by
  rintro cursor result after spelled run
  obtain ⟨rfl, rfl⟩ := Prod.mk.inj (Option.some.inj run)
  exact ⟨isGood, spelled⟩

theorem failure :
    Gives good (failure : Reader α) := by
  rintro cursor result after spelled run
  cases run

theorem bind {next : α → Reader β}
    (first : Gives good reader)
    (second : ∀ value, good value → Gives fine (next value)) :
    Gives fine (reader >>= next) := by
  rintro cursor result after spelled run
  rw [StateT.run_bind, Option.bind_eq_bind, Option.bind_eq_some_iff] at run
  obtain ⟨⟨value, between⟩, firstRun, secondRun⟩ := run
  obtain ⟨isGood, spelledBetween⟩ := first cursor value between spelled firstRun
  exact second value isGood between result after spelledBetween secondRun

theorem map {change : α → β}
    (first : Gives good reader)
    (fits : ∀ value, good value → fine (change value)) :
    Gives fine (change <$> reader) := by
  rw [← bind_pure_comp]
  exact first.bind fun value isGood => result (fits value isGood)

theorem get :
    Gives (fun cursor => ∀ token ∈ cursor.rest, token.lexeme.isSpelled = true)
      (MonadState.get : Reader Cursor) := by
  rintro cursor result after spelled run
  obtain ⟨rfl, rfl⟩ := Prod.mk.inj (Option.some.inj run)
  exact ⟨spelled, spelled⟩

end Gives

/-! ## Reading tokens -/

theorem gives_advance :
    Gives (fun lexeme => lexeme.isSpelled = true) advance := by
  refine Gives.get.bind fun cursor spelled => ?_
  split
  · exact .failure
  · next token rest isRest =>
      rw [isRest] at spelled
      rintro before result after _ run
      obtain ⟨rfl, rfl⟩ := Prod.mk.inj (Option.some.inj run)
      exact ⟨spelled token List.mem_cons_self,
        fun other later => spelled other (List.mem_cons_of_mem _ later)⟩

theorem leaves_peek :
    Leaves peek :=
  Gives.get.bind fun _ _ => .result trivial

theorem leaves_sees (lexeme : Lexeme) :
    Leaves (sees lexeme) :=
  leaves_peek.bind fun _ _ => .result trivial

theorem leaves_expect (lexeme : Lexeme) :
    Leaves (expect lexeme) := by
  refine gives_advance.bind fun found _ => ?_
  split
  · exact .result trivial
  · exact .failure

theorem leaves_accept (lexeme : Lexeme) :
    Leaves (accept lexeme) := by
  refine (leaves_sees lexeme).bind fun seen _ => ?_
  split
  · exact gives_advance.bind fun _ _ => .result trivial
  · exact .result trivial

theorem leaves_name :
    Leaves name := by
  refine gives_advance.bind fun found _ => ?_
  split
  · exact .result trivial
  · exact .failure

theorem gives_partsUpTo {good : α → Prop} {part : Reader α} (opens : Lexeme → Bool) (bound : Nat)
    (each : Gives good part) :
    Gives (fun found => ∀ value ∈ found, good value) (partsUpTo opens part bound) := by
  induction bound with
  | zero => exact .result (List.forall_mem_nil _)
  | succ bound inductionHypothesis =>
      refine leaves_peek.bind fun next _ => ?_
      split
      · refine each.bind fun first isGood => ?_
        refine inductionHypothesis.bind fun others areGood => ?_
        exact .result (List.forall_mem_cons.mpr ⟨isGood, areGood⟩)
      · exact .result (List.forall_mem_nil _)

theorem gives_parts {good : α → Prop} {part : Reader α} (opens : Lexeme → Bool)
    (each : Gives good part) :
    Gives (fun found => ∀ value ∈ found, good value) (parts opens part) :=
  Gives.get.bind fun _ _ => gives_partsUpTo opens _ each

theorem gives_someParts {good : α → Prop} {part : Reader α} (opens : Lexeme → Bool)
    (each : Gives good part) :
    Gives (fun found => ∀ value ∈ found, good value) (someParts opens part) :=
  each.bind fun _ isGood => (gives_parts opens each).bind fun _ areGood =>
    .result (List.forall_mem_cons.mpr ⟨isGood, areGood⟩)

/-! ## Reading values -/

/-- Whether the value of an entry is written, if the entry has one. -/
def WrittenEntry (entry : Option (Name × Value)) : Prop :=
  ∀ written ∈ entry, written.2.isWritten = true

theorem gives_entry {nested : Reader Value}
    (inside : Gives (fun value => value.isWritten = true) nested) :
    Gives WrittenEntry (entry nested) := by
  refine leaves_name.bind fun key _ => (leaves_accept _).bind fun accepted _ => ?_
  split
  · refine inside.bind fun value isWritten => .result ?_
    intro written isEntry
    obtain rfl := Option.some.inj isEntry
    exact isWritten
  · exact .result fun _ absent => by cases absent

theorem isWritten_wordValue (word : Name) :
    (wordValue word).isWritten = true := by
  unfold wordValue
  split
  · rfl
  split
  · rfl
  split
  · rfl
  · next noTrue noFalse noNull =>
      rw [Value.isWritten]
      simp [noTrue, noFalse, noNull]

theorem areWritten_of_forall {items : List Value}
    (each : ∀ item ∈ items, item.isWritten = true) :
    Value.areWritten items = true := by
  induction items with
  | nil => rfl
  | cons item items inductionHypothesis =>
      obtain ⟨first, others⟩ := List.forall_mem_cons.mp each
      rw [Value.areWritten, first, inductionHypothesis others]
      rfl

theorem areEntriesWritten_iff {entries : List (Name × Value)} :
    Value.areEntriesWritten entries = true ↔ ∀ entry ∈ entries, entry.2.isWritten = true := by
  induction entries with
  | nil => exact iff_of_true rfl (List.forall_mem_nil _)
  | cons entry entries inductionHypothesis =>
      rw [Value.areEntriesWritten, Bool.and_eq_true, inductionHypothesis, List.forall_mem_cons]

theorem gives_valueOver {nested : Reader Value} (constant : Bool)
    (inside : Gives (fun value => value.isWritten = true) nested) :
    Gives (fun value => value.isWritten = true) (valueOver constant nested) := by
  -- One case for each kind of token that a value opens with, in the order of the reader.
  refine gives_advance.bind fun lexeme spelled => ?_
  split
  · split
    · exact .failure
    · exact leaves_name.bind fun _ _ => .result rfl
  · exact .result spelled
  · exact .result spelled
  · exact .result rfl
  · exact .result (isWritten_wordValue _)
  · refine (gives_parts _ inside).bind fun items each => (leaves_expect _).bind fun _ _ => ?_
    exact .result (areWritten_of_forall each)
  · refine (gives_parts _ (gives_entry inside)).bind fun entries each =>
      (leaves_expect _).bind fun _ _ => ?_
    refine .result (areEntriesWritten_iff.mpr fun entry member => ?_)
    obtain ⟨found, among, rfl⟩ := List.mem_filterMap.mp member
    exact each _ among entry rfl
  · exact .failure

theorem gives_value (constant : Bool) (levels : Nat) :
    Gives (fun value => value.isWritten = true) (value constant levels) := by
  induction levels with
  | zero => exact gives_valueOver constant .failure
  | succ levels inductionHypothesis => exact gives_valueOver constant inductionHypothesis

/-- Wherever the arguments of a field stand, their values are written. -/
theorem gives_arguments (constant : Bool) (levels : Nat) :
    Gives (fun arguments => ∀ argument ∈ arguments, argument.value.isWritten = true)
      (arguments constant levels) := by
  refine (leaves_expect _).bind fun _ _ => ?_
  refine (gives_someParts _ (gives_entry (gives_value constant levels))).bind fun entries each => ?_
  refine (leaves_expect _).bind fun _ _ => .result fun argument member => ?_
  obtain ⟨found, among, isArgument⟩ := List.mem_filterMap.mp member
  obtain ⟨⟨name, value⟩, rfl, rfl⟩ := Option.map_eq_some_iff.mp isArgument
  exact each _ among (name, value) rfl

/-- What is read from a whole text is good. -/
theorem Gives.of_run {good : α → Prop} {reader : Reader α} {text : String} {result : α}
    (gives : Gives good reader)
    (read : reader.run text = some result) :
    good result := by
  rw [run, Option.bind_eq_bind, Option.bind_eq_some_iff] at read
  obtain ⟨tokens, split, read⟩ := read
  rw [Option.bind_eq_bind, Option.bind_eq_some_iff] at read
  obtain ⟨⟨found, cursor⟩, taken, ended⟩ := read
  have given := (gives ⟨tokens, 0⟩ found cursor (Token.isSpelled_of_ofText? split) taken).1
  simp only [Option.ite_none_right_eq_some, Option.some.injEq] at ended
  obtain ⟨-, rfl⟩ := ended
  exact given

theorem written_of_run_arguments {constant : Bool} {levels : Nat} {text : String}
    {arguments : List Argument}
    (read : (Reader.arguments constant levels).run text = some arguments) :
    ∀ argument ∈ arguments, argument.value.isWritten = true :=
  (gives_arguments constant levels).of_run read

end Reader

end QueryPaging
