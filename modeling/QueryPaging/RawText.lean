import QueryPaging.Document
import QueryPaging.Sha256

/-!
# Raw text

What is sent to a server is a document without the directives of the pass. Its text on a single line
identifies the document.
-/

namespace QueryPaging

/-- The directives that do not belong to the pass. -/
def foreignDirectives (directives : List Directive) : List Directive :=
  directives.filter fun directive => !PassDirective.isOwn directive

mutual

def Selection.stripped : Selection → Selection
  | .field ⟨aliasName, name, arguments, directives, selections, span⟩ =>
      .field ⟨aliasName, name, arguments, foreignDirectives directives,
        strippedSelections selections, span⟩
  | .spread ⟨fragment, directives⟩ => .spread ⟨fragment, foreignDirectives directives⟩
  | .inline ⟨condition, directives, selections⟩ =>
      .inline ⟨condition, foreignDirectives directives, strippedSelections selections⟩

def strippedSelections : List Selection → List Selection
  | [] => []
  | selection :: others => selection.stripped :: strippedSelections others

end

/-- A definition without the directives of the pass. -/
def Definition.stripped : Definition → Definition
  | .operation body =>
      .operation { body with
        directives := foreignDirectives body.directives
        selections := strippedSelections body.selections }
  | .fragment body =>
      .fragment { body with
        directives := foreignDirectives body.directives
        selections := strippedSelections body.selections }

/-- Definitions without the directives of the pass. -/
def stripDefinitions (definitions : List Definition) : List Definition :=
  definitions.map Definition.stripped

/-- The text that is sent to a server. -/
def rawText (definitions : List Definition) : String :=
  renderDocument (stripDefinitions definitions)

/-- The text that is sent to a server, on a single line. -/
def normalizedText (definitions : List Definition) : String :=
  renderFlat (stripDefinitions definitions)

def contentHash (text : String) : String :=
  Sha256.ofText text

end QueryPaging
