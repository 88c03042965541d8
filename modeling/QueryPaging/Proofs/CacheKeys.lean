import QueryPaging.Metadata.Building
import QueryPaging.Proofs.Spelling

/-!
# Cache keys

A cache key is a flat text. It still tells the name of its field, whether the field is paginated and
the arguments that the field keeps, up to their order.

- `keyRaw_eq_keyRaw_iff`: two fields share a key exactly when they ask for the same list or value.
- `keyName_keyRaw`, `isPageKey_keyRaw`: what a key says of its field by itself.
-/

namespace QueryPaging

/-! ## Arguments that are kept -/

/-- The arguments that say which page of a list is asked for. -/
def pageArguments : List String :=
  ["first", "after", "last", "before", "limit", "offset"]

/-- The arguments of a field, without those that page where the field is paginated. -/
def keptArguments (field : Field) (paginated : Bool) : List Argument :=
  field.arguments.filter fun argument =>
    !(paginated && pageArguments.contains argument.name.text)

theorem areNamed_all (name : Name) :
    PagingArgument.areNamed PagingArgument.all name = pageArguments.contains name.text := by
  have sameName : ∀ argument : PagingArgument,
      (argument.name == name) = (name.text == argument.name.text) := by
    intro argument
    rw [Bool.eq_iff_iff, beq_iff_eq, beq_iff_eq]
    exact ⟨fun same => by rw [same], fun same => Name.eq_of_text_eq same.symm⟩
  simp only [PagingArgument.areNamed, PagingArgument.all, List.any_cons, List.any_nil, sameName,
    pageArguments, List.contains_cons, List.contains_nil]
  rfl

theorem keyArguments_eq_mergeSort (field : Field) (paginated : Bool) :
    keyArguments field paginated =
      (keptArguments field paginated).mergeSort fun left right =>
        left.name.text ≤ right.name.text := by
  simp only [keyArguments, keptArguments, areNamed_all]

/-- What stands in a key are the kept arguments in some order. -/
theorem keyArguments_perm (field : Field) (paginated : Bool) :
    (keyArguments field paginated).Perm (keptArguments field paginated) := by
  rw [keyArguments_eq_mergeSort]
  exact List.mergeSort_perm _ _

/-- An argument is known by its name where no name is repeated. -/
theorem eq_of_argumentName_eq {arguments : List Argument} {left right : Argument}
    (distinct : (arguments.map Argument.name).Nodup)
    (leftMember : left ∈ arguments)
    (rightMember : right ∈ arguments)
    (same : left.name = right.name) :
    left = right := by
  induction arguments with
  | nil => cases leftMember
  | cons first others inductionHypothesis =>
      rw [List.map_cons, List.nodup_cons] at distinct
      have apart : ∀ other ∈ others, first.name ≠ other.name := by
        intro other member alike
        exact distinct.1 (alike ▸ List.mem_map_of_mem member)
      rcases List.mem_cons.mp leftMember with rfl | leftLater
      · rcases List.mem_cons.mp rightMember with rfl | rightLater
        · rfl
        · exact absurd same (apart right rightLater)
      · rcases List.mem_cons.mp rightMember with rfl | rightLater
        · exact absurd same.symm (apart left leftLater)
        · exact inductionHypothesis distinct.2 leftLater rightLater

/-- Sorting by name forgets the order, and only the order. -/
theorem keyArguments_eq_iff_perm {left right : Field} {leftPaged rightPaged : Bool}
    (distinct : (right.arguments.map Argument.name).Nodup) :
    keyArguments left leftPaged = keyArguments right rightPaged ↔
      (keptArguments left leftPaged).Perm (keptArguments right rightPaged) := by
  constructor
  · intro same
    have toLeft := (keyArguments_perm left leftPaged).symm
    rw [same] at toLeft
    exact toLeft.trans (keyArguments_perm right rightPaged)
  · intro alike
    -- Both keys list their arguments by name, and no name stands for two arguments.
    have sorted : ∀ (field : Field) (paginated : Bool), (keyArguments field paginated).Pairwise
        fun before after => before.name.text ≤ after.name.text := by
      intro field paginated
      rw [keyArguments_eq_mergeSort]
      refine (List.pairwise_mergeSort ?_ ?_ _).imp fun ordered => of_decide_eq_true ordered
      · intro first second third below above
        exact decide_eq_true (String.le_trans (of_decide_eq_true below) (of_decide_eq_true above))
      · intro first second
        rw [Bool.or_eq_true, decide_eq_true_eq, decide_eq_true_eq]
        exact String.le_total _ _
    have sameMembers := (keyArguments_perm left leftPaged).trans
      (alike.trans (keyArguments_perm right rightPaged).symm)
    have written : ∀ argument ∈ keyArguments right rightPaged, argument ∈ right.arguments :=
      fun argument member => (List.mem_filter.mp
        ((keyArguments_perm right rightPaged).mem_iff.mp member)).1
    refine List.Perm.eq_of_pairwise ?_ (sorted left leftPaged) (sorted right rightPaged) sameMembers
    intro before after member otherMember below above
    exact eq_of_argumentName_eq distinct (written before (sameMembers.mem_iff.mp member))
      (written after otherMember) (Name.eq_of_text_eq (String.le_antisymm below above))

/-! ## The text of a key -/

/-- Some arguments as they stand between the parentheses of a key. -/
def printedArguments (arguments : List Argument) : List Char :=
  List.intercalate [',', ' '] (arguments.map fun argument =>
    argument.name.text.toList ++ ':' :: ' ' :: argument.value.render.toList)

/-- What stands in a key behind the name of its field. -/
def keyTail (arguments : List Argument) (paginated : Bool) : List Char :=
  (if arguments.isEmpty then [] else '(' :: (printedArguments arguments ++ [')']))
    ++ (if paginated then "::paginated".toList else [])

theorem toList_keyRaw (field : Field) (paginated : Bool) :
    (keyRaw field paginated).toList =
      field.name.text.toList ++ keyTail (keyArguments field paginated) paginated := by
  have printed : ∀ arguments : List Argument,
      (", ".intercalate (arguments.map fun argument =>
        argument.name.text ++ ": " ++ argument.value.render)).toList =
      printedArguments arguments := by
    intro arguments
    rw [String.toList_intercalate, List.map_map, printedArguments]
    congr 1
    refine List.map_congr_left fun argument _ => ?_
    simp [String.toList_append]
  rw [keyRaw, String.toList_append, String.toList_append, List.append_assoc, keyTail]
  congr 2
  · by_cases empty : (keyArguments field paginated).isEmpty = true
    · rw [if_pos empty, if_pos empty]
      rfl
    · rw [if_neg empty, if_neg empty, String.toList_append, String.toList_append, printed]
      rfl
  · cases paginated <;> rfl

theorem head?_keyTail (arguments : List Argument) (paginated : Bool) :
    ∀ c ∈ (keyTail arguments paginated).head?, continuesName c = false := by
  intro c first
  cases arguments with
  | cons argument others =>
      obtain rfl := Option.some.inj first
      decide
  | nil =>
      cases paginated with
      | false => cases first
      | true =>
          obtain rfl := Option.some.inj first
          decide

/-! ## Reading a key back -/

/-- What stands behind one of the arguments of a key. -/
def behindArgument (others : List Argument) (rest : List Char) : List Char :=
  if others.isEmpty then ')' :: rest else ',' :: ' ' :: (printedArguments others ++ ')' :: rest)

theorem endsValue_behindArgument (others : List Argument) (rest : List Char) :
    Value.EndsValue (behindArgument others rest) := by
  intro c first
  cases others with
  | nil => exact .inr (Option.some.inj first).symm
  | cons argument others => exact .inl (Option.some.inj first).symm

theorem printedArguments_cons_append (argument : Argument) (others : List Argument)
    (rest : List Char) :
    printedArguments (argument :: others) ++ ')' :: rest =
      argument.name.text.toList ++ ':' :: ' ' ::
        (argument.value.render.toList ++ behindArgument others rest) := by
  cases others with
  | nil => simp [printedArguments, behindArgument, List.intercalate]
  | cons second others =>
      simp [printedArguments, behindArgument, List.intercalate_cons_cons]

/-- The arguments of a key are told by its text. -/
theorem eq_of_printedArguments_append_eq {left right : List Argument} {rest after : List Char}
    (leftWritten : ∀ argument ∈ left, argument.value.isWritten = true)
    (rightWritten : ∀ argument ∈ right, argument.value.isWritten = true)
    (leftSome : left ≠ [])
    (rightSome : right ≠ [])
    (same : printedArguments left ++ ')' :: rest = printedArguments right ++ ')' :: after) :
    left = right ∧ rest = after := by
  induction left generalizing right with
  | nil => exact absurd rfl leftSome
  | cons argument left inductionHypothesis =>
      obtain ⟨other, right, rfl⟩ := List.exists_cons_of_ne_nil rightSome
      rw [printedArguments_cons_append, printedArguments_cons_append] at same
      obtain ⟨sameName, behindName⟩ := Value.eq_of_name_append_eq same
      obtain ⟨sameValue, behindValue⟩ := Value.eq_of_renderAt_append_eq argument.value
        (leftWritten argument List.mem_cons_self) (rightWritten other List.mem_cons_self)
        (endsValue_behindArgument left rest) (endsValue_behindArgument right after)
        (List.cons.inj behindName).2
      have sameArgument : argument = other := by
        cases argument
        cases other
        rw [Argument.mk.injEq]
        exact ⟨sameName, sameValue⟩
      cases left with
      | nil =>
          cases right with
          | nil => exact ⟨by rw [sameArgument], (List.cons.inj behindValue).2⟩
          | cons second right => cases (List.cons.inj behindValue).1
      | cons second left =>
          cases right with
          | nil => cases (List.cons.inj behindValue).1
          | cons otherSecond right =>
              obtain ⟨alike, ended⟩ := inductionHypothesis
                (fun later member => leftWritten later (List.mem_cons_of_mem _ member))
                (fun later member => rightWritten later (List.mem_cons_of_mem _ member))
                (List.cons_ne_nil _ _) (List.cons_ne_nil _ _)
                (List.cons.inj (List.cons.inj behindValue).2).2
              exact ⟨by rw [sameArgument, alike], ended⟩

theorem keyTail_nil (paginated : Bool) :
    keyTail [] paginated = if paginated then "::paginated".toList else [] :=
  rfl

theorem keyTail_cons (argument : Argument) (others : List Argument) (paginated : Bool) :
    keyTail (argument :: others) paginated =
      '(' :: (printedArguments (argument :: others) ++
        ')' :: if paginated then "::paginated".toList else []) := by
  rw [keyTail, List.isEmpty_cons, if_neg Bool.false_ne_true, List.cons_append, List.append_assoc]
  rfl

theorem paginated_of_suffix_eq {leftPaged rightPaged : Bool}
    (same : (if leftPaged then "::paginated".toList else []) =
      if rightPaged then "::paginated".toList else []) :
    leftPaged = rightPaged := by
  revert leftPaged rightPaged
  decide

theorem eq_of_keyTail_eq {left right : List Argument} {leftPaged rightPaged : Bool}
    (leftWritten : ∀ argument ∈ left, argument.value.isWritten = true)
    (rightWritten : ∀ argument ∈ right, argument.value.isWritten = true)
    (same : keyTail left leftPaged = keyTail right rightPaged) :
    left = right ∧ leftPaged = rightPaged := by
  have unlike : ∀ (argument : Argument) (others : List Argument) (paged otherPaged : Bool),
      keyTail (argument :: others) paged ≠ keyTail [] otherPaged := by
    intro argument others paged otherPaged same
    rw [keyTail_cons, keyTail_nil] at same
    cases otherPaged with
    | false => cases same
    | true => cases (List.cons.inj same).1
  cases left with
  | nil =>
      cases right with
      | nil => exact ⟨rfl, paginated_of_suffix_eq same⟩
      | cons other right => exact absurd same.symm (unlike other right rightPaged leftPaged)
  | cons argument left =>
      cases right with
      | nil => exact absurd same (unlike argument left leftPaged rightPaged)
      | cons other right =>
          rw [keyTail_cons, keyTail_cons] at same
          obtain ⟨alike, ended⟩ := eq_of_printedArguments_append_eq leftWritten rightWritten
            (List.cons_ne_nil _ _) (List.cons_ne_nil _ _) (List.cons.inj same).2
          exact ⟨alike, paginated_of_suffix_eq ended⟩

/-- A field whose arguments have distinct names and values that some text spells. -/
structure FieldOf.IsSeparable (field : Field) : Prop where
  distinct : (field.arguments.map Argument.name).Nodup
  written : ∀ argument ∈ field.arguments, argument.value.isWritten = true

/-- Arguments that were read from a text need only have distinct names. -/
theorem FieldOf.isSeparable_of_run {field : Field} {constant : Bool} {levels : Nat} {text : String}
    (read : (Reader.arguments constant levels).run text = some field.arguments)
    (distinct : (field.arguments.map Argument.name).Nodup) :
    field.IsSeparable where
  distinct := distinct
  written := Reader.written_of_run_arguments read

theorem FieldOf.IsSeparable.keyArguments_written {field : Field}
    (separable : field.IsSeparable)
    (paginated : Bool) :
    ∀ argument ∈ keyArguments field paginated, argument.value.isWritten = true := by
  intro argument member
  have kept := (keyArguments_perm field paginated).mem_iff.mp member
  exact separable.written argument (List.mem_filter.mp kept).1

/-- Two fields share a cache key exactly when they have one name, are both paginated or both not,
and pass the same arguments in any order, leaving aside those that page a paginated field. -/
theorem keyRaw_eq_keyRaw_iff {left right : Field} (leftPaged rightPaged : Bool)
    (leftSeparable : left.IsSeparable)
    (rightSeparable : right.IsSeparable) :
    keyRaw left leftPaged = keyRaw right rightPaged ↔
      left.name = right.name ∧ leftPaged = rightPaged ∧
        (keptArguments left leftPaged).Perm (keptArguments right rightPaged) := by
  rw [← keyArguments_eq_iff_perm rightSeparable.distinct, ← String.toList_inj, toList_keyRaw,
    toList_keyRaw]
  constructor
  · intro same
    obtain ⟨sameName, sameTail⟩ := eq_of_boundary_append_eq (fun _ => continuesName_of_mem)
      (fun _ => continuesName_of_mem) (head?_keyTail _ _) (head?_keyTail _ _) same
    obtain ⟨sameArguments, samePaged⟩ := eq_of_keyTail_eq
      (leftSeparable.keyArguments_written leftPaged)
      (rightSeparable.keyArguments_written rightPaged) sameTail
    exact ⟨Name.eq_of_text_eq (String.toList_inj.mp sameName), samePaged, sameArguments⟩
  · rintro ⟨sameName, rfl, sameArguments⟩
    rw [sameName, sameArguments]

/-! ## Two pages of one list -/

namespace Search

def filter : Name := ⟨"filter", by decide⟩
def order : Name := ⟨"order", by decide⟩
def newest : Name := ⟨"NEWEST", by decide⟩

/-- What the pages look for, an object that holds a list and a text. -/
def wanted : Value :=
  .object [(⟨"tags", by decide⟩, .list [.string "calm", .string "two\nlines"]),
    (⟨"shelf", by decide⟩, .int "-3")]

/-- A field that asks for some books. -/
def books (arguments : List Argument) : Field :=
  ⟨none, ⟨"books", by decide⟩, arguments, [], [], none⟩

def start : Field :=
  books [⟨PagingArgument.first.name, .int "10"⟩, ⟨filter, wanted⟩, ⟨order, .enum newest⟩]

def next : Field :=
  books [⟨order, .enum newest⟩,
    ⟨PagingArgument.after.name, .reference Augmentation.cursor⟩, ⟨filter, wanted⟩]

theorem isSeparable_start : start.IsSeparable where
  distinct := by decide
  written := by decide

theorem isSeparable_next : next.IsSeparable where
  distinct := by decide
  written := by decide

/-- The pages share a key where they are paginated, and only there. -/
theorem keyRaw_start_next :
    keyRaw start true = keyRaw next true ∧ keyRaw start false ≠ keyRaw next false ∧
      keyRaw start true ≠ keyRaw next false := by
  refine ⟨?_, ?_, ?_⟩
  · refine (keyRaw_eq_keyRaw_iff true true isSeparable_start isSeparable_next).mpr
      ⟨rfl, rfl, ?_⟩
    decide
  · intro same
    have kept := ((keyRaw_eq_keyRaw_iff false false isSeparable_start isSeparable_next).mp same).2.2
    revert kept
    decide
  · intro same
    have paged := ((keyRaw_eq_keyRaw_iff true false isSeparable_start isSeparable_next).mp same).2.1
    cases paged

end Search

/-! ## What a key says by itself -/

/-- The name that a key opens with. -/
def keyName (key : String) : String :=
  String.ofList (key.toList.takeWhile continuesName)

/-- Whether a key is that of a paginated field. -/
def isPageKey (key : String) : Bool :=
  "::paginated".toList.isSuffixOf key.toList

theorem keyName_keyRaw (field : Field) (paginated : Bool) :
    keyName (keyRaw field paginated) = field.name.text := by
  have ends : (keyTail (keyArguments field paginated) paginated).takeWhile continuesName = [] := by
    have outside := head?_keyTail (keyArguments field paginated) paginated
    cases tail : keyTail (keyArguments field paginated) paginated with
    | nil => rfl
    | cons c others =>
        rw [tail] at outside
        rw [List.takeWhile_cons_of_neg]
        rw [outside c rfl]
        exact Bool.false_ne_true
  rw [keyName, toList_keyRaw, List.takeWhile_append_of_pos fun _ => continuesName_of_mem, ends,
    List.append_nil, String.ofList_toList]

theorem isPageKey_keyRaw (field : Field) (paginated : Bool) :
    isPageKey (keyRaw field paginated) = paginated := by
  rw [Bool.eq_iff_iff, isPageKey, List.isSuffixOf_iff_suffix, toList_keyRaw, keyTail]
  cases paginated with
  | true =>
      rw [if_pos rfl, ← List.append_assoc]
      exact iff_of_true (List.suffix_append _ _) rfl
  | false =>
      refine iff_of_false ?_ Bool.false_ne_true
      rw [if_neg Bool.false_ne_true, List.append_nil]
      rintro ⟨before, same⟩
      split at same
      · rw [List.append_nil] at same
        have colon : ':' ∈ field.name.text.toList := by
          rw [← same]
          exact List.mem_append_right _ List.mem_cons_self
        exact absurd (continuesName_of_mem colon) (by decide)
      · have last := congrArg List.getLast? same
        rw [← List.cons_append, ← List.append_assoc, List.getLast?_append, List.getLast?_concat]
          at last
        cases last

end QueryPaging
