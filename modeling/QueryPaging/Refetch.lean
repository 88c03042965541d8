/-!
# Refetch specs

What a runtime needs to know to fetch the next page of a field.
-/

namespace QueryPaging

/-- How pages are told apart. -/
inductive PagingMethod where
  | cursor
  | offset
deriving DecidableEq

/-- Where the next page lies. -/
inductive PagingDirection where
  | forward
  | backward
  | both
deriving DecidableEq

/-- Where a page starts: after a cursor, or at an offset. -/
inductive PageStart where
  | cursor (text : String)
  | offset (count : Int32)
deriving DecidableEq

/-- How the next page of one field is fetched. -/
structure RefetchSpec where
  /-- The response keys that lead to the field. -/
  path : List String
  method : PagingMethod
  pageSize : Option Int32
  /-- Whether the field lies inside an object that is looked up. -/
  embedded : Bool
  /-- The type the lookup starts from. -/
  targetType : String
  paginated : Bool
  direction : PagingDirection
  start : Option PageStart
deriving DecidableEq

end QueryPaging
