import QueryPaging.Json.Reading
import QueryPaging.Json.Writing
import QueryPaging.Refetch

/-!
# Refetch specs as JSON

The keys are written in a fixed order, and the page size and the start are left out when there is
none. Where a start is a text it is a cursor, where it is a number it is an offset.
-/

namespace QueryPaging

namespace PagingMethod

def word : PagingMethod → String
  | .cursor => "cursor"
  | .offset => "offset"

def ofWord? (word : String) : Option PagingMethod :=
  [PagingMethod.cursor, .offset].find? (·.word == word)

end PagingMethod

namespace PagingDirection

def word : PagingDirection → String
  | .forward => "forward"
  | .backward => "backward"
  | .both => "both"

def ofWord? (word : String) : Option PagingDirection :=
  [PagingDirection.forward, .backward, .both].find? (·.word == word)

end PagingDirection

namespace PageStart

def toJson : PageStart → Json
  | .cursor text => .string text
  | .offset count => .integer count.toInt

def ofJson? : Json → Option PageStart
  | .string text => some (.cursor text)
  | .integer value => (Decimal.word32? value).map .offset
  | _ => none

end PageStart

/-- The word of an enumeration: a text, or an object with that text as its only key. -/
def Json.word? : Json → Option String
  | .string word => some word
  | .object [(word, .null)] => some word
  | _ => none

namespace RefetchSpec

/-- The keys in the order they are written. -/
def keys : List String :=
  ["path", "method", "pageSize", "embedded", "targetType", "paginated", "direction", "start"]

def toJson (spec : RefetchSpec) : Json :=
  .object
    ([("path", Json.ofStrings spec.path), ("method", .string spec.method.word)]
      ++ Json.entry? "pageSize" (fun size => .integer size.toInt) spec.pageSize
      ++ [("embedded", .boolean spec.embedded), ("targetType", .string spec.targetType),
        ("paginated", .boolean spec.paginated), ("direction", .string spec.direction.word)]
      ++ Json.entry? "start" PageStart.toJson spec.start)

def ofJson? (json : Json) : Option RefetchSpec := do
  let fields ← json.record? keys
  let path ← Record.required? fields "path" Json.strings?
  let method ← Record.required? fields "method" fun json => json.word?.bind PagingMethod.ofWord?
  let pageSize ← Record.defaulting? fields "pageSize" none
    (Json.optional? fun json => json.integer?.bind Decimal.word32?)
  let embedded ← Record.required? fields "embedded" Json.boolean?
  let targetType ← Record.required? fields "targetType" Json.string?
  let paginated ← Record.required? fields "paginated" Json.boolean?
  let direction ← Record.required? fields "direction"
    fun json => json.word?.bind PagingDirection.ofWord?
  let start ← Record.defaulting? fields "start" none (Json.optional? PageStart.ofJson?)
  return { path, method, pageSize, embedded, targetType, paginated, direction, start }

/-- The spec as compact text. -/
def render (spec : RefetchSpec) : String :=
  spec.toJson.render

def ofText? (text : String) : Option RefetchSpec :=
  (Json.ofText? text).bind ofJson?

end RefetchSpec

end QueryPaging
