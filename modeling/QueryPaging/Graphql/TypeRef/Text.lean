import QueryPaging.Graphql.TypeRef
import QueryPaging.Text.Blank

/-!
# Type references in texts

A type reference kept in a string may have blanks around any of its parts.
-/

namespace QueryPaging.TypeRef

def beforeLast? (last : Char) (text : List Char) : Option (List Char) :=
  if text.getLast? = some last then some text.dropLast else none

/-- The text after a character that opens it. -/
def afterFirst? (first : Char) : List Char → Option (List Char)
  | [] => none
  | c :: rest => if c = first then some rest else none

theorem length_lt_of_beforeLast?_eq_some {last : Char} {text rest : List Char}
    (found : beforeLast? last text = some rest) :
    rest.length < text.length := by
  unfold beforeLast? at found
  split at found
  · cases found
    cases text with
    | nil => simp_all
    | cons _ _ => simp
  · cases found

theorem length_lt_of_afterFirst?_eq_some {first : Char} {text rest : List Char}
    (found : afterFirst? first text = some rest) :
    rest.length < text.length := by
  cases text with
  | nil => simp [afterFirst?] at found
  | cons c others =>
      simp only [afterFirst?] at found
      split at found
      · cases found
        simp
      · cases found

/-- A trimmed text without its mark, and whether there was one. -/
def withoutMark (text : List Char) : List Char × Bool :=
  match beforeLast? '!' text with
  | some rest => (Blank.trimEnd rest, true)
  | none => (text, false)

theorem length_withoutMark_le (text : List Char) :
    (withoutMark text).1.length ≤ text.length := by
  unfold withoutMark
  split
  · next rest found =>
      exact Nat.le_trans (Blank.length_trimEnd_le rest)
        (Nat.le_of_lt (length_lt_of_beforeLast?_eq_some found))
  · exact Nat.le_refl _

/-- The type reference a text spells, if it spells one. -/
def ofChars? (text : List Char) : Option TypeRef :=
  let marked := withoutMark (Blank.trim text)
  match _opening : afterFirst? '[' marked.1 with
  | some inside =>
      match _closing : beforeLast? ']' inside with
      | some item => (ofChars? item).map (.list · marked.2)
      | none => none
  | none => (Name.ofText? (String.ofList marked.1)).map (.named · marked.2)
termination_by text.length
decreasing_by
  have trimmed := Blank.length_trim_le text
  have core_le : marked.1.length ≤ (Blank.trim text).length := length_withoutMark_le _
  have inside_lt := length_lt_of_afterFirst?_eq_some _opening
  have item_lt := length_lt_of_beforeLast?_eq_some _closing
  omega

/-- The type reference a text spells, if it spells one. -/
def ofText? (text : String) : Option TypeRef :=
  ofChars? text.toList

end QueryPaging.TypeRef
