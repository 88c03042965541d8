import QueryPaging.Graphql.Syntax
import QueryPaging.Graphql.StringLiteral

/-!
# Printing documents

Documents are written in one of two layouts: indented, with one selection a line, or flat, on a
single line. Arguments and variable definitions stay on one line in both.

A value that is printed by itself is written indented: each item of a list or object stands on a
line of its own, and a text that spans lines is written as a block where it can be.
-/

namespace QueryPaging

/-- How the parts of a document are set apart. -/
inductive Layout where
  | indented (level : Nat)
  | flat
deriving DecidableEq

namespace Layout

/-- The start of a new line at an indentation level. -/
def newline (level : Nat) : String :=
  "\n" ++ String.ofList (List.replicate (2 * level) ' ')

/-- What stands between two selections. -/
def gap : Layout → String
  | .indented level => newline level
  | .flat => " "

/-- The layout inside a selection set. -/
def deeper : Layout → Layout
  | .indented level => .indented (level + 1)
  | .flat => .flat

/-- Texts between braces, each set apart from the next. -/
def braces (layout : Layout) (texts : List String) : String :=
  if texts.isEmpty then
    "\x7b\x7d"
  else
    "\x7b" ++ layout.deeper.gap ++ layout.deeper.gap.intercalate texts ++ layout.gap ++ "\x7d"

end Layout

/-! ## Values -/

namespace Value

/-- A truth value as it is written. -/
def renderBoolean (truth : Bool) : String :=
  if truth then "true" else "false"

mutual

def renderInline : Value → String
  | .null => "null"
  | .boolean truth => renderBoolean truth
  | .int digits => digits
  | .float digits => digits
  | .string text => StringLiteral.quote text
  | .enum name => name.text
  | .reference name => "$" ++ name.text
  | .list items => "[" ++ ", ".intercalate (inlineItems items) ++ "]"
  | .object entries => "\x7b" ++ ", ".intercalate (inlineEntries entries) ++ "\x7d"

def inlineItems : List Value → List String
  | [] => []
  | item :: items => item.renderInline :: inlineItems items

def inlineEntries : List (Name × Value) → List String
  | [] => []
  | (name, value) :: entries =>
      (name.text ++ ": " ++ value.renderInline) :: inlineEntries entries

end

/-- A text at an indentation level, as a block where it can be. -/
def renderText (level : Nat) (text : String) : String :=
  match StringLiteral.blockLines? text with
  | none => StringLiteral.quote text
  | some lines =>
      let body := lines.map fun line => if line = "" then "\n" else Layout.newline level ++ line
      "\"\"\"" ++ "".intercalate body ++ Layout.newline level ++ "\"\"\""

mutual

def renderAt (level : Nat) : Value → String
  | .string text => renderText level text
  | .list [] => "[]"
  | .list (item :: items) =>
      "[" ++ "".intercalate (linesOf (level + 1) (item :: items)) ++ Layout.newline level ++ "]"
  | .object [] => "\x7b\x7d"
  | .object (entry :: entries) =>
      "\x7b" ++ "".intercalate (entryLinesOf (level + 1) (entry :: entries))
        ++ Layout.newline level ++ "\x7d"
  | .null => "null"
  | .boolean truth => renderBoolean truth
  | .int digits => digits
  | .float digits => digits
  | .enum name => name.text
  | .reference name => "$" ++ name.text

def linesOf (level : Nat) : List Value → List String
  | [] => []
  | item :: items => (Layout.newline level ++ item.renderAt level ++ ",") :: linesOf level items

def entryLinesOf (level : Nat) : List (Name × Value) → List String
  | [] => []
  | (name, value) :: entries =>
      (Layout.newline level ++ name.text ++ ": " ++ value.renderAt level ++ ",")
        :: entryLinesOf level entries

end

/-- A value printed by itself. -/
def render (value : Value) : String :=
  value.renderAt 0

end Value

/-! ## Directives and arguments -/

def Argument.render (argument : Argument) : String :=
  argument.name.text ++ ": " ++ argument.value.renderInline

/-- Arguments between parentheses, or nothing. -/
def renderArguments (arguments : List Argument) : String :=
  if arguments.isEmpty then "" else "(" ++ ", ".intercalate (arguments.map Argument.render) ++ ")"

def Directive.render (directive : Directive) : String :=
  "@" ++ directive.name.text ++ renderArguments directive.arguments

/-- Directives, each after a blank. -/
def renderDirectives (directives : List Directive) : String :=
  "".intercalate (directives.map fun directive => " " ++ directive.render)

/-! ## Selections -/

mutual

def Selection.render (layout : Layout) : Selection → String
  | .field ⟨aliasName, name, arguments, directives, selections, _⟩ =>
      (aliasName.map fun key => key.text ++ ": ").getD "" ++ name.text
        ++ renderArguments arguments ++ renderDirectives directives
        ++ (if selections.isEmpty then ""
          else " " ++ layout.braces (renderSelections layout.deeper selections))
  | .spread ⟨fragment, directives⟩ =>
      "..." ++ fragment.text ++ renderDirectives directives
  | .inline ⟨condition, directives, selections⟩ =>
      "..." ++ (condition.map fun type => " on " ++ type.text).getD ""
        ++ renderDirectives directives ++ " "
        ++ layout.braces (renderSelections layout.deeper selections)

def renderSelections (layout : Layout) : List Selection → List String
  | [] => []
  | selection :: others => selection.render layout :: renderSelections layout others

end

/-- A field printed by itself. -/
def FieldOf.render (field : Field) : String :=
  (Selection.field field).render (.indented 0)

/-! ## Definitions -/

def OperationKind.render : OperationKind → String
  | .query => "query"
  | .mutation => "mutation"
  | .subscription => "subscription"

def VariableDefinition.render (declared : VariableDefinition) : String :=
  "$" ++ declared.name.text ++ ": " ++ declared.type.render
    ++ (declared.default.map fun value => " = " ++ value.renderInline).getD ""
    ++ renderDirectives declared.directives

/-- Whether an operation can be written as a selection set alone. -/
def Operation.isShorthand (operation : Operation) : Bool :=
  operation.kind == .query && operation.name.isNone && operation.declarations.isEmpty
    && operation.directives.isEmpty

/-- What stands before the selection set of an operation. -/
def Operation.renderHead (operation : Operation) : String :=
  operation.kind.render ++ (operation.name.map fun name => " " ++ name.text).getD ""
    ++ (if operation.declarations.isEmpty then ""
      else "(" ++ ", ".intercalate (operation.declarations.map VariableDefinition.render) ++ ")")
    ++ renderDirectives operation.directives ++ " "

def Fragment.renderHead (fragment : Fragment) : String :=
  "fragment " ++ fragment.name.text ++ " on " ++ fragment.condition.text
    ++ renderDirectives fragment.directives ++ " "

/-- A definition. Only the first of a document may be written as a selection set alone. -/
def Definition.render (layout : Layout) (isFirst : Bool) : Definition → String
  | .operation body =>
      (if isFirst && body.isShorthand then "" else body.renderHead)
        ++ layout.braces (renderSelections layout.deeper body.selections)
  | .fragment body =>
      body.renderHead ++ layout.braces (renderSelections layout.deeper body.selections)

/-- The definitions of a document, each printed in its place. -/
def renderDefinitions (layout : Layout) (isFirst : Bool) : List Definition → List String
  | [] => []
  | definition :: others =>
      definition.render layout isFirst :: renderDefinitions layout false others

/-- A document with one selection a line and an empty line between definitions. -/
def renderDocument (definitions : List Definition) : String :=
  if definitions.isEmpty then
    ""
  else
    "\n\n".intercalate (renderDefinitions (.indented 0) true definitions) ++ "\n"

/-- A document on a single line. -/
def renderFlat (definitions : List Definition) : String :=
  " ".intercalate (renderDefinitions .flat true definitions)

end QueryPaging
