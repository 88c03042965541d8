import QueryPaging.Graphql.Reading.Value

/-!
# Reading operations and fragments

A selection set takes one level of nesting and may not be empty.
-/

namespace QueryPaging.Reader

def opensSelection : Lexeme → Bool
  | .name _ => true
  | .ellipsis => true
  | _ => false

/-- The type named after `on`. -/
def condition : Reader Name := do
  word "on"
  name

/-- The name of a fragment, which may not be `on`. -/
def fragmentName : Reader Name := do
  let called ← name
  if called.text = "on" then failure else return called

/-- What follows an ellipsis: the name of a fragment, or an inline fragment. -/
def afterEllipsis (levels : Nat) (nested : Reader (List Selection)) : Reader Selection := do
  match ← peekName with
  | some following =>
      if following.text = "on" then
        let type ← condition
        let applied ← directives false levels
        return .inline ⟨some type, applied, ← nested⟩
      else
        let called ← fragmentName
        return .spread ⟨called, ← directives false levels⟩
  | none =>
      let applied ← directives false levels
      return .inline ⟨none, applied, ← nested⟩

/-- A field, from its alias or name to its last token. -/
def field (levels : Nat) (nested : Reader (List Selection)) : Reader Field := do
  let start ← position
  let aliased := (← peekSecond) == some (.mark ':')
  let renamed ← if aliased then some <$> (name <* mark ':') else pure none
  let called ← name
  let passed ← optionalArguments false levels
  let applied ← directives false levels
  let inside := (← whenSees (.mark '{') nested).getD []
  return ⟨renamed, called, passed, applied, inside, some ⟨start, (← get).reached⟩⟩

def selection (levels : Nat) (nested : Reader (List Selection)) : Reader Selection := do
  if ← accept .ellipsis then
    joined
    afterEllipsis levels nested
  else
    return .field (← field levels nested)

/-- A selection set that may nest `levels` deep, itself included. -/
def selectionSet : (levels : Nat) → Reader (List Selection)
  | 0 => failure
  | levels + 1 => do
      mark '{'
      let selections ← someParts opensSelection (selection levels (selectionSet levels))
      mark '}'
      return selections

def variableDefinition : Reader VariableDefinition := do
  mark '$'
  let called ← name
  mark ':'
  let type ← typeRef nestingLimit
  let default ← optionalDefault nestingLimit
  return ⟨called, type, default, ← directives true nestingLimit⟩

def variableDefinitions : Reader (List VariableDefinition) := do
  mark '('
  let definitions ← someParts (· == .mark '$') variableDefinition
  mark ')'
  return definitions

def operationKind? (word : Name) : Option OperationKind :=
  if word.text = "query" then some .query
  else if word.text = "mutation" then some .mutation
  else if word.text = "subscription" then some .subscription
  else none

/-- An operation. A selection set alone is an anonymous query. -/
def operation : Reader Operation := do
  let start ← position
  if ← sees (.mark '{') then
    let selections ← selectionSet nestingLimit
    return ⟨.query, none, [], [], selections, some ⟨start, (← get).reached⟩⟩
  else
    let some kind := operationKind? (← name) | failure
    let called ← match ← peekName with
      | some _ => some <$> name
      | none => pure none
    let declarations := (← whenSees (.mark '(') variableDefinitions).getD []
    let applied ← directives false nestingLimit
    let selections ← selectionSet nestingLimit
    return ⟨kind, called, declarations, applied, selections, some ⟨start, (← get).reached⟩⟩

/-- Whether a fragment comes next. It opens with its keyword, or with a text in place of the
keyword; the keyword behind such a text is the name of the fragment. -/
def seesFragment : Reader Bool := do
  let keyword := Lexeme.name Name.fragment
  match ← peek with
  | some (.string _) => return (← peekSecond) == some keyword
  | first => return first == some keyword

/-- A fragment, after it was seen. -/
def fragment : Reader Fragment := do
  let start ← position
  let _ ← advance
  let called ← fragmentName
  let type ← condition
  let applied ← directives false nestingLimit
  let selections ← selectionSet nestingLimit
  return ⟨called, type, applied, selections, some ⟨start, (← get).reached⟩⟩

end QueryPaging.Reader
