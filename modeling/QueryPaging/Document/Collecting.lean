import QueryPaging.Document
import QueryPaging.Graphql.Reading.Document

/-!
# Collecting documents

A source text is taken apart into one document for each operation and fragment, in order. Type
system definitions are passed over.
-/

namespace QueryPaging.Document

/-- The name of an operation that has none. -/
def anonymous : String := "<anonymous>"

/-- The document an author's definition makes. -/
def ofDefinition (source : String) (definition : Definition) : Document :=
  { name := (definition.name?.map Name.text).getD anonymous
    source
    definitions := [definition]
    refetch := none
    generated := none }

/-- The documents of a source text, if the text can be read. -/
def collect? (source text : String) : Option (List Document) :=
  (executableDefinitions? text).map (·.map (ofDefinition source))

end QueryPaging.Document
