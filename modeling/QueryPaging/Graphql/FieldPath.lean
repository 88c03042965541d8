import QueryPaging.Graphql.Syntax

/-!
# Fields by position

A field is addressed by one index for each selection set on the way to it. Fields and inline
fragments lead on into their own selection sets; spreads do not.
-/

namespace QueryPaging

def fieldAt? (selections : List Selection) : List Nat → Option Field
  | [] => none
  | [last] =>
      match selections[last]? with
      | some (.field field) => some field
      | _ => none
  | index :: next :: steps =>
      match selections[index]? with
      | some (.field field) => fieldAt? field.selections (next :: steps)
      | some (.inline inline) => fieldAt? inline.selections (next :: steps)
      | _ => none

def editFieldAt? (edit : Field → Field) (selections : List Selection) :
    List Nat → Option (List Selection)
  | [] => none
  | [last] =>
      match selections[last]? with
      | some (.field field) => some (selections.set last (.field (edit field)))
      | _ => none
  | index :: next :: steps =>
      match selections[index]? with
      | some (.field field) => do
          let inner ← editFieldAt? edit field.selections (next :: steps)
          return selections.set index (.field { field with selections := inner })
      | some (.inline inline) => do
          let inner ← editFieldAt? edit inline.selections (next :: steps)
          return selections.set index (.inline { inline with selections := inner })
      | _ => none

end QueryPaging
