import QueryPaging.Graphql.TypeRef.Text

/-!
# Type references written and read

A type reference that was written as a text is read back from it.
-/

namespace QueryPaging

namespace Blank

/-- A text that neither opens nor closes with a blank. -/
structure Tight (text : List Char) : Prop where
  opening : ∀ c, text.head? = some c → isBlank c = false
  closing : ∀ c, text.getLast? = some c → isBlank c = false

theorem dropWhile_eq_self {text : List Char}
    (opening : ∀ c, text.head? = some c → isBlank c = false) :
    text.dropWhile isBlank = text := by
  cases text with
  | nil => rfl
  | cons c rest => rw [List.dropWhile_cons_of_neg (by simp [opening c rfl])]

theorem trimEnd_eq_self {text : List Char}
    (closing : ∀ c, text.getLast? = some c → isBlank c = false) :
    trimEnd text = text := by
  rw [trimEnd, dropWhile_eq_self, List.reverse_reverse]
  simpa using closing

theorem trim_eq_self {text : List Char}
    (tight : Tight text) :
    trim text = text := by
  rw [trim, trimStart, dropWhile_eq_self tight.opening, trimEnd_eq_self tight.closing]

end Blank

/-! ## The characters of names -/

theorem toList_eq_cons (name : Name) :
    ∃ first rest, name.text.toList = first :: rest ∧
      opensName first = true ∧ ∀ c ∈ rest, continuesName c = true := by
  have wellFormed := name.wellFormed
  unfold isNameText at wellFormed
  split at wellFormed
  · cases wellFormed
  · next first rest characters =>
      rw [Bool.and_eq_true, List.all_eq_true] at wellFormed
      exact ⟨first, rest, characters, wellFormed⟩

theorem continuesName_of_opensName {c : Char}
    (opens : opensName c = true) :
    continuesName c = true := by
  unfold opensName at opens
  unfold continuesName Char.isAlphanum
  rw [Bool.or_eq_true] at opens ⊢
  exact opens.imp_left fun letter => by rw [letter, Bool.true_or]

theorem continuesName_of_mem {name : Name} {c : Char}
    (member : c ∈ name.text.toList) :
    continuesName c = true := by
  obtain ⟨first, rest, characters, opens, continues⟩ := toList_eq_cons name
  rw [characters, List.mem_cons] at member
  rcases member with rfl | later
  · exact continuesName_of_opensName opens
  · exact continues c later

/-- The codes of the characters inside names: digits, capitals, the underscore, small letters. -/
theorem toNat_of_continuesName {c : Char}
    (continues : continuesName c = true) :
    (0x30 ≤ c.toNat ∧ c.toNat ≤ 0x39) ∨ (0x41 ≤ c.toNat ∧ c.toNat ≤ 0x5A) ∨ c.toNat = 0x5F ∨
      (0x61 ≤ c.toNat ∧ c.toNat ≤ 0x7A) := by
  delta continuesName Char.isAlphanum Char.isAlpha Char.isUpper Char.isLower Char.isDigit
    at continues
  simp only [Bool.or_eq_true, Bool.and_eq_true, decide_eq_true_eq, beq_iff_eq,
    UInt32.le_iff_toNat_le, ge_iff_le] at continues
  change ((((0x41 ≤ c.toNat ∧ c.toNat ≤ 0x5A) ∨ (0x61 ≤ c.toNat ∧ c.toNat ≤ 0x7A)) ∨
    (0x30 ≤ c.toNat ∧ c.toNat ≤ 0x39)) ∨ c = '_') at continues
  rcases continues with ((capital | small) | digit) | rfl
  · exact Or.inr (Or.inl capital)
  · exact Or.inr (Or.inr (Or.inr small))
  · exact Or.inl digit
  · decide

theorem isBlank_eq_false_of_continuesName {c : Char}
    (continues : continuesName c = true) :
    Blank.isBlank c = false := by
  have range := toNat_of_continuesName continues
  simp only [Blank.isBlank, Bool.or_eq_false_iff, Bool.and_eq_false_iff, decide_eq_false_iff_not,
    beq_eq_false_iff_ne]
  omega

/-- A character inside names is none of those around them. -/
theorem ne_of_continuesName {c : Char}
    (continues : continuesName c = true) :
    c ≠ '[' ∧ c ≠ ']' ∧ c ≠ '!' := by
  have range := toNat_of_continuesName continues
  refine ⟨?_, ?_, ?_⟩
  all_goals
    rintro rfl
    revert range
    decide

theorem tight_name (name : Name) :
    Blank.Tight name.text.toList where
  opening _ first :=
    isBlank_eq_false_of_continuesName (continuesName_of_mem (List.mem_of_head? first))
  closing _ last :=
    isBlank_eq_false_of_continuesName (continuesName_of_mem (List.mem_of_getLast? last))

/-! ## Round trip -/

namespace TypeRef

/-- The characters between the outermost marks of a reference. -/
def core : TypeRef → List Char
  | .named name _ => name.text.toList
  | .list item _ => '[' :: item.render.toList ++ [']']

theorem toList_render (type : TypeRef) :
    type.render.toList = type.core ++ if type.isRequired then ['!'] else [] := by
  cases type with
  | named name required => cases required <;> simp [render, core, mark, isRequired]
  | list item required => cases required <;> simp [render, core, mark, isRequired]

theorem tight_core (type : TypeRef) :
    Blank.Tight type.core := by
  cases type with
  | named name required => exact tight_name name
  | list item required =>
      constructor
      · intro c first
        simp only [core, List.cons_append, List.head?_cons, Option.some.injEq] at first
        rw [← first]
        decide
      · intro c last
        rw [core, List.getLast?_concat, Option.some.injEq] at last
        rw [← last]
        decide

theorem getLast?_core_ne (type : TypeRef) :
    type.core.getLast? ≠ some '!' := by
  cases type with
  | named name required =>
      intro last
      exact (ne_of_continuesName (continuesName_of_mem (List.mem_of_getLast? last))).2.2 rfl
  | list item required =>
      rw [core, List.getLast?_concat]
      decide

theorem core_ne_nil (type : TypeRef) :
    type.core ≠ [] := by
  cases type with
  | named name required =>
      obtain ⟨first, rest, characters, _⟩ := toList_eq_cons name
      simp [core, characters]
  | list item required => simp [core]

/-- Nothing is trimmed off a reference as it is written. -/
theorem trim_render (type : TypeRef) :
    Blank.trim type.render.toList = type.render.toList := by
  refine Blank.trim_eq_self ⟨?_, ?_⟩
  · intro c first
    obtain ⟨head, rest, characters⟩ := List.exists_cons_of_ne_nil type.core_ne_nil
    refine type.tight_core.opening c ?_
    rwa [toList_render, characters, List.cons_append, List.head?_cons, ← List.head?_cons,
      ← characters] at first
  · intro c last
    rw [toList_render] at last
    cases required : type.isRequired with
    | false =>
        rw [required] at last
        exact type.tight_core.closing c (by simpa using last)
    | true =>
        simp only [required, if_true, List.getLast?_concat, Option.some.injEq] at last
        rw [← last]
        decide

theorem withoutMark_render (type : TypeRef) :
    withoutMark type.render.toList = (type.core, type.isRequired) := by
  rw [toList_render, withoutMark, beforeLast?]
  cases type.isRequired with
  | false => simp [type.getLast?_core_ne]
  | true => simp [Blank.trimEnd_eq_self type.tight_core.closing]

theorem afterFirst?_name (name : Name) :
    afterFirst? '[' name.text.toList = none := by
  obtain ⟨first, rest, characters, opens, _⟩ := toList_eq_cons name
  have different := (ne_of_continuesName (continuesName_of_opensName opens)).1
  rw [characters, afterFirst?, if_neg different]

/-- What a trimmed text without its mark spells when it opens with no bracket. -/
theorem ofChars?_of_named {text core : List Char} {required : Bool}
    (marked : withoutMark (Blank.trim text) = (core, required))
    (opening : afterFirst? '[' core = none) :
    ofChars? text = (Name.ofText? (String.ofList core)).map (.named · required) := by
  rw [ofChars?]
  split
  · next inside found => simp [marked, opening] at found
  · rw [marked]

/-- What a trimmed text without its mark spells when brackets stand around an item. -/
theorem ofChars?_of_list {text core inside item : List Char} {required : Bool}
    (marked : withoutMark (Blank.trim text) = (core, required))
    (opening : afterFirst? '[' core = some inside)
    (closing : beforeLast? ']' inside = some item) :
    ofChars? text = (ofChars? item).map (.list · required) := by
  rw [ofChars?]
  split
  · next found =>
      simp only [marked, opening, Option.some.injEq] at found
      subst found
      split
      · next same =>
          rw [closing, Option.some.injEq] at same
          rw [marked, same]
      · next missing => simp [closing] at missing
  · next found => simp [marked, opening] at found

theorem ofChars?_render (type : TypeRef) :
    ofChars? type.render.toList = some type := by
  induction type with
  | named name required =>
      have marked := withoutMark_render (.named name required)
      rw [← trim_render] at marked
      rw [ofChars?_of_named marked (afterFirst?_name name)]
      simp [core, isRequired]
  | list item required inductionHypothesis =>
      have opening : afterFirst? '[' (core (.list item required)) =
          some (item.render.toList ++ [']']) := by
        simp [core, afterFirst?]
      have closing : beforeLast? ']' (item.render.toList ++ [']']) = some item.render.toList := by
        simp [beforeLast?]
      have marked := withoutMark_render (.list item required)
      rw [← trim_render] at marked
      rw [ofChars?_of_list marked opening closing, inductionHypothesis]
      rfl

/-- A written type reference is read back as itself. -/
@[simp]
theorem ofText?_render (type : TypeRef) :
    ofText? type.render = some type :=
  ofChars?_render type

end TypeRef

end QueryPaging
