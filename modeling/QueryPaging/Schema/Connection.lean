import QueryPaging.Schema.Basic

/-!
# Connections

A connection is a type that answers a page of a list as `edges` around nodes, with a `pageInfo`
that tells where the page begins and ends.
-/

namespace QueryPaging

/-- The parts of a connection that a type exposes. -/
structure ConnectionShape where
  edge : Option Name
  node : Option Name
  pageInfo : Option Name
  hasNextPage : Bool
  hasPreviousPage : Bool
deriving DecidableEq

namespace ConnectionShape

/-- The parts a type exposes. -/
def ofType (schema : Schema) (type : String) : ConnectionShape :=
  let edge := schema.fieldCore? type "edges"
  let pageInfo := schema.fieldCore? type "pageInfo"
  { edge
    node := edge.bind fun edge => schema.fieldCore? edge Name.node
    pageInfo
    hasNextPage := pageInfo.any fun info => schema.hasField info "hasNextPage"
    hasPreviousPage := pageInfo.any fun info => schema.hasField info "hasPreviousPage" }

/-- Whether the type can be paged through by cursors. -/
def isConnection (shape : ConnectionShape) : Bool :=
  shape.edge.isSome && shape.pageInfo.isSome

/-- Whether the type tells about the pages on both sides. -/
def isBidirectional (shape : ConnectionShape) : Bool :=
  shape.isConnection && shape.hasNextPage && shape.hasPreviousPage

end ConnectionShape

end QueryPaging
