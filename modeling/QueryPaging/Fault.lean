import QueryPaging.Graphql.Printing

/-!
# Faults

Why a document could not be made to page. A fault never stops a run: it is reported, and the
document it belongs to stays as it was written.
-/

namespace QueryPaging

/-- A response path as it is shown to authors. -/
def renderPath (path : List Name) : String :=
  ".".intercalate (path.map Name.text)

/-- A piece of a message that quotes something from a document. -/
def quoted (text : String) : String :=
  "`" ++ text ++ "`"

/-- Why a selection cannot be made to page. -/
inductive ShapeCause where
  | unknownParent
  | undeclaredField (type field : Name)
  | notPageable
  | notConnection (type : Name)
  | notList (type : TypeRef)
  | movedField
  | missingFragment (name : Name)
  | notFragment
deriving DecidableEq

namespace ShapeCause

def message : ShapeCause → String
  | .unknownParent => "its parent type is not in the schema"
  | .undeclaredField type field => quoted type.text ++ " has no field " ++ quoted field.text
  | .notPageable => "it takes no pagination arguments and does not return a connection"
  | .notConnection type =>
      "cursor pagination needs " ++ quoted "edges" ++ " and " ++ quoted "pageInfo" ++ " on "
        ++ quoted type.text
  | .notList type => "offset pagination needs a list, found " ++ quoted type.render
  | .movedField => "the field moved during promotion"
  | .missingFragment name => "fragment " ++ quoted name.text ++ " is not part of this run"
  | .notFragment => "only fragments can be embedded"

end ShapeCause

/-- Why objects of a type cannot be looked up again. -/
inductive IdentityCause where
  | noQueryRoot
  | missingLookup (root : Name) (field : Name)
  | missingArgument (root field : Name) (argument : String)
  | notIdentifiable
deriving DecidableEq

namespace IdentityCause

def message : IdentityCause → String
  | .noQueryRoot => "the schema has no query root type"
  | .missingLookup root field => quoted root.text ++ " has no field " ++ quoted field.text
  | .missingArgument root field argument =>
      quoted (root.text ++ "." ++ field.text) ++ " has no argument " ++ quoted argument
  | .notIdentifiable =>
      "it does not implement " ++ quoted "Node" ++ " and has no configured resolver"

end IdentityCause

/-- What is wrong with a directive of the pass. -/
inductive DirectiveCause where
  | pageSizeNotInteger
  | unknownArgument (name : Name)
  | notObject (name : Name)
  | invalidType (name : Name) (text : String)
  | unexpectedKey (name key : Name)
  | missingType (name : Name)
deriving DecidableEq

namespace DirectiveCause

def directive : DirectiveCause → String
  | .pageSizeNotInteger => "paginate"
  | .unknownArgument _ => "paginate"
  | _ => "arguments"

def message : DirectiveCause → String
  | .pageSizeNotInteger => "pageSize must be an integer literal"
  | .unknownArgument name => "unknown argument " ++ quoted name.text
  | .notObject name =>
      quoted name.text ++ " must be an object like " ++ "\x7btype: \"Int\"\x7d"
  | .invalidType name text => quoted name.text ++ " has an invalid type " ++ quoted text
  | .unexpectedKey name key => quoted name.text ++ " has an unexpected key " ++ quoted key.text
  | .missingType name => quoted name.text ++ " is missing its type"

end DirectiveCause

/-- Why a single document could not be made to page. -/
inductive Fault where
  | ambiguousMode (path : List Name) (cursor offset : List Name)
  | unresolvableIdentity (type : String) (cause : IdentityCause)
  | variableCollision (variableName argument : Name) (existing requested : TypeRef)
  | unsupportedShape (subject : String) (cause : ShapeCause)
  | multipleFields (first second : List Name)
  | unsupportedOperation (kind : OperationKind)
  | malformedDirective (cause : DirectiveCause)
  | nameCollision (name : String)
  | invalidName (text : String)
deriving DecidableEq

namespace Fault

/-- A stable word for each fault, for tools that read reports. -/
def code : Fault → String
  | .ambiguousMode .. => "ambiguous-mode"
  | .unresolvableIdentity .. => "unresolvable-identity"
  | .variableCollision .. => "variable-collision"
  | .unsupportedShape .. => "unsupported-selection-shape"
  | .multipleFields .. => "multiple-paginate-directives"
  | .unsupportedOperation .. => "unsupported-operation"
  | .malformedDirective .. => "malformed-directive"
  | .nameCollision .. => "name-collision"
  | .invalidName .. => "invalid-name"

def listed (names : List Name) : String :=
  ", ".intercalate (names.map Name.text)

def message : Fault → String
  | .ambiguousMode path cursor offset =>
      quoted (renderPath path) ++ " mixes cursor arguments (" ++ listed cursor
        ++ ") with offset arguments (" ++ listed offset ++ ")"
  | .unresolvableIdentity type cause =>
      quoted type ++ " cannot be refetched: " ++ cause.message
  | .variableCollision name argument existing requested =>
      "variable " ++ quoted ("$" ++ name.text) ++ " is declared as " ++ quoted existing.render
        ++ " and cannot also be " ++ quoted (argument.text ++ ": " ++ requested.render)
  | .unsupportedShape subject cause =>
      quoted subject ++ " cannot be paginated: " ++ cause.message
  | .multipleFields first second =>
      "only one field per document can be paginated, found " ++ quoted (renderPath first)
        ++ " and " ++ quoted (renderPath second)
  | .unsupportedOperation kind =>
      "@paginate is not supported in " ++ kind.render ++ " operations"
  | .malformedDirective cause => "malformed @" ++ cause.directive ++ ": " ++ cause.message
  | .nameCollision name =>
      "generated name " ++ quoted name ++ " is already taken by another document"
  | .invalidName text => quoted text ++ " is not a valid GraphQL name"

end Fault

def Name.require (text : String) : Except Fault Name :=
  match Name.ofText? text with
  | some name => .ok name
  | none => .error (.invalidName text)

end QueryPaging
