import QueryPaging.Graphql.Printing

/-!
# Inspecting documents

Fields, arguments and variables are read back out of a document by the names and response keys that
authors use, so that they can be compared without regard to how the document is laid out.
-/

namespace QueryPaging

/-! ## Fields by response key -/

mutual

/-- The first field answered under a key. Inline fragments are looked through. -/
def Selection.fieldUnder? (key : String) : Selection → Option Field
  | .field ⟨aliasName, name, arguments, directives, selections, span⟩ =>
      let field : Field := ⟨aliasName, name, arguments, directives, selections, span⟩
      if field.responseKey.text = key then some field else none
  | .inline ⟨_, _, selections⟩ => fieldUnder? key selections
  | .spread _ => none

def fieldUnder? (key : String) : List Selection → Option Field
  | [] => none
  | selection :: others =>
      match selection.fieldUnder? key with
      | some field => some field
      | none => fieldUnder? key others

end

/-- The field below some response keys, of which there has to be one at least. -/
def fieldBelow? (selections : List Selection) : List String → Option Field
  | [] => none
  | key :: keys => do
      let field ← fieldUnder? key selections
      if keys.isEmpty then some field else fieldBelow? field.selections keys

def findDefinition? (name : String) (definitions : List Definition) : Option Definition :=
  definitions.find? fun definition => definition.name?.any (·.text == name)

/-- What a selection shows of itself: the response key of a field, or what is spread. -/
def Selection.label : Selection → String
  | .field body => body.responseKey.text
  | .spread body => "..." ++ body.fragment.text
  | .inline body => "..." ++ (body.condition.map fun type => " on " ++ type.text).getD ""

/-! ## Directives -/

mutual

/-- The directives of a selection, each before those of the selections below. -/
def Selection.allDirectives : Selection → List Directive
  | .field ⟨_, _, _, directives, selections, _⟩ => directives ++ directivesOf selections
  | .spread ⟨_, directives⟩ => directives
  | .inline ⟨_, directives, selections⟩ => directives ++ directivesOf selections

def directivesOf : List Selection → List Directive
  | [] => []
  | selection :: others => selection.allDirectives ++ directivesOf others

end

/-- The directives of a definition, its own before those of its selections. -/
def Definition.allDirectives (definition : Definition) : List Directive :=
  definition.directives ++ directivesOf definition.selections

/-! ## Variables and parameters -/

/-- What a variable definition says besides its directives. -/
def VariableDefinition.signature (declared : VariableDefinition) : String :=
  "$" ++ declared.name.text ++ ": " ++ declared.type.render
    ++ (declared.default.map fun value => " = " ++ value.render).getD ""

def VariableDefinition.renderAlone (declared : VariableDefinition) : String :=
  declared.signature ++ renderDirectives declared.directives

/-- The variables of the first operation called `name`. -/
def variablesOf (name : String) (definitions : List Definition) : List VariableDefinition :=
  match (definitions.filterMap Definition.operation?).find? fun operation =>
      operation.name.any (·.text == name) with
  | some operation => operation.declarations
  | none => []

/-- A parameter as a fragment writes it down: its type is the text the author gave. -/
structure WrittenParameter where
  name : Name
  type : String
  default : Option Value

def Value.entry? (name : String) (entries : List (Name × Value)) : Option Value :=
  (entries.find? (·.1.text == name)).map (·.2)

/-- The parameter that an argument writes down: an object with a text as its type. -/
def WrittenParameter.ofArgument? (argument : Argument) : Option WrittenParameter :=
  match argument.value with
  | .object entries =>
      match Value.entry? "type" entries with
      | some (.string type) => some ⟨argument.name, type, Value.entry? "default" entries⟩
      | _ => none
  | _ => none

/-- The parameters that the first fragment called `name` writes down, if all of them can be
read. -/
def writtenParameters? (name : String) (definitions : List Definition) :
    Option (List WrittenParameter) :=
  match (definitions.filterMap Definition.fragment?).find? (·.name.text == name) with
  | none => some []
  | some fragment =>
      match findDirective? "arguments" fragment.directives with
      | none => some []
      | some directive => directive.arguments.mapM WrittenParameter.ofArgument?

end QueryPaging
