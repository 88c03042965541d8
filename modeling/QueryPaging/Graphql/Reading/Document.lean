import QueryPaging.Graphql.Reading.System

/-!
# Reading source texts

A source text is one or more definitions. Operations, fragments and type system definitions may
stand in any order.
-/

namespace QueryPaging

namespace Reader

def definition : Reader SourceDefinition := do
  let opening ← peekName
  if (← sees (.mark '{')) || (opening.bind operationKind?).isSome then
    return .executable (.operation (← operation))
  else if ← seesFragment then
    return .executable (.fragment (← fragment))
  else
    return .system (← systemDefinition)

def definitions : Reader (List SourceDefinition) :=
  someParts (fun _ => true) definition

end Reader

def sourceDefinitions? (text : String) : Option (List SourceDefinition) :=
  Reader.definitions.run text

/-- The operations and fragments of a source text. -/
def executableDefinitions? (text : String) : Option (List Definition) :=
  (sourceDefinitions? text).map (·.filterMap SourceDefinition.executable?)

end QueryPaging
