import QueryPaging.Graphql.Reading.Executable
import QueryPaging.Graphql.TypeSystem

/-!
# Reading type system definitions
-/

namespace QueryPaging.Reader

variable {α : Type}

def description : Reader Unit := do
  match ← peek with
  | some (.string _) =>
      let _ ← advance
      return ()
  | _ => return ()

/-- Take the description of a definition if there is one. No comma may stand behind it. -/
def leadingDescription : Reader Unit := do
  match ← peek with
  | some (.string _) =>
      let _ ← advance
      joined
  | _ => return ()

/-- Directives on a declaration, read and not kept. -/
def skipDirectives : Reader Bool := do
  return !(← directives true nestingLimit).isEmpty

/-- Parts between two marks, at least one of them. -/
def enclosed (opening closing : Char) (opens : Lexeme → Bool) (part : Reader α) :
    Reader (List α) := do
  mark opening
  let found ← someParts opens part
  mark closing
  return found

/-- Parts between two marks, or none at all. -/
def optionallyEnclosed (opening closing : Char) (opens : Lexeme → Bool) (part : Reader α) :
    Reader (List α) := do
  return (← whenSees (.mark opening) (enclosed opening closing opens part)).getD []

def inputValue : Reader InputValue := do
  description
  let called ← name
  mark ':'
  let type ← typeRef nestingLimit
  let default ← optionalDefault nestingLimit
  let _ ← skipDirectives
  return ⟨called, type, default⟩

def fieldDefinition : Reader FieldDefinition := do
  description
  let called ← name
  let declared ← optionallyEnclosed '(' ')' opensDescribed inputValue
  mark ':'
  let type ← typeRef nestingLimit
  let _ ← skipDirectives
  return ⟨called, declared, type⟩

def fieldDefinitions : Reader (List FieldDefinition) :=
  optionallyEnclosed '{' '}' opensDescribed fieldDefinition

/-- The interfaces a type declares that it implements. -/
def interfaces : Reader (List Name) := do
  if ← seesWord "implements" then
    word "implements"
    separated '&' name
  else
    return []

def enumValue : Reader Name := do
  description
  let called ← name
  let _ ← skipDirectives
  match wordValue called with
  | .enum value => return value
  | _ => failure

/-- A root operation. One that names no type says nothing. -/
def rootOperation : Reader (Option RootOperation) := do
  let some kind := operationKind? (← name) | failure
  mark ':'
  match ← peekName with
  | some _ => return some ⟨kind, ← name⟩
  | none => return none

def directiveLocations : List String :=
  ["QUERY", "MUTATION", "SUBSCRIPTION", "FIELD", "FRAGMENT_DEFINITION", "FRAGMENT_SPREAD",
    "INLINE_FRAGMENT", "VARIABLE_DEFINITION", "SCHEMA", "SCALAR", "OBJECT", "FIELD_DEFINITION",
    "ARGUMENT_DEFINITION", "INTERFACE", "UNION", "ENUM", "ENUM_VALUE", "INPUT_OBJECT",
    "INPUT_FIELD_DEFINITION"]

def directiveLocation : Reader Unit := do
  if directiveLocations.contains (← name).text then pure () else failure

def directiveDefinition : Reader SystemDefinition := do
  word "directive"
  mark '@'
  let called ← name
  let declared ← optionallyEnclosed '(' ')' opensDescribed inputValue
  if ← seesWord "repeatable" then word "repeatable"
  word "on"
  let _ ← separated '|' directiveLocation
  return .directive ⟨called, declared⟩

/-- The root operations of a schema definition, if it lists any. -/
def rootOperations : Reader (List RootOperation) := do
  return (← optionallyEnclosed '{' '}' opensName rootOperation).filterMap id

/-- A type definition from its keyword on, and whether it says anything beyond its name. -/
def typeDefinition : Reader (TypeDefinition × Bool) := do
  let keyword := (← name).text
  let called ← name
  if keyword = "scalar" then
    let directed ← skipDirectives
    return (⟨called, .scalar⟩, directed)
  else if keyword = "type" then
    let implemented ← interfaces
    let directed ← skipDirectives
    let fields ← fieldDefinitions
    return (⟨called, .object implemented fields⟩,
      directed || !implemented.isEmpty || !fields.isEmpty)
  else if keyword = "interface" then
    let implemented ← interfaces
    let directed ← skipDirectives
    let fields ← fieldDefinitions
    return (⟨called, .interface implemented fields⟩,
      directed || !implemented.isEmpty || !fields.isEmpty)
  else if keyword = "union" then
    let directed ← skipDirectives
    let members := (← whenSees (.mark '=') (mark '=' *> separated '|' name)).getD []
    return (⟨called, .union members⟩, directed || !members.isEmpty)
  else if keyword = "enum" then
    let directed ← skipDirectives
    let values ← optionallyEnclosed '{' '}' opensDescribed enumValue
    return (⟨called, .enum values⟩, directed || !values.isEmpty)
  else if keyword = "input" then
    let directed ← skipDirectives
    let fields ← optionallyEnclosed '{' '}' opensDescribed inputValue
    return (⟨called, .input fields⟩, directed || !fields.isEmpty)
  else
    failure

/-- The rest of a schema extension. It has directives or lists root operations. -/
def schemaExtension : Reader SystemDefinition := do
  word "schema"
  if ← skipDirectives then
    let listed ← whenSees (.mark '{') (mark '{' *> parts opensName rootOperation <* mark '}')
    return .schemaExtension ((listed.getD []).filterMap id)
  else
    return .schemaExtension ((← enclosed '{' '}' opensName rootOperation).filterMap id)

/-- An extension, which must add something. -/
def extension : Reader SystemDefinition := do
  word "extend"
  joined
  if ← seesWord "schema" then
    schemaExtension
  else
    let (definition, saysMore) ← typeDefinition
    if saysMore then return .typeExtension definition else failure

def systemDefinition : Reader SystemDefinition := do
  if ← seesWord "extend" then
    extension
  else
    leadingDescription
    if ← seesWord "schema" then
      word "schema"
      let _ ← skipDirectives
      return .schema (← rootOperations)
    else if ← seesWord "directive" then
      directiveDefinition
    else
      let (definition, _) ← typeDefinition
      return .type definition

end QueryPaging.Reader
