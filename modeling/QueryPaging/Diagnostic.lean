import QueryPaging.Document

/-!
# Diagnostics

A diagnostic ties a fault to the document it belongs to, and to the stage at which it came up.
-/

namespace QueryPaging

/-- How serious a diagnostic is, from the least to the most. -/
inductive Severity where
  /-- A suggestion that does not change the output. -/
  | hint
  /-- The document was processed, but something looks wrong. -/
  | warning
  /-- The document could not be processed. -/
  | error
deriving DecidableEq

namespace Severity

def isError : Severity → Bool
  | .error => true
  | _ => false

def render : Severity → String
  | .hint => "hint"
  | .warning => "warning"
  | .error => "error"

/-- All severities, from the least to the most serious. -/
def ascending : List Severity :=
  [.hint, .warning, .error]

end Severity

/-- The stages that a document goes through. -/
inductive Stage where
  /-- Decoding directives and finding the paginated field. -/
  | decode
  | detectMode
  | promoteArguments
  | buildSpec
  | embed
deriving DecidableEq

def Stage.render : Stage → String
  | .decode => "decode"
  | .detectMode => "detect-mode"
  | .promoteArguments => "promote-arguments"
  | .buildSpec => "build-spec"
  | .embed => "embed"

/-- A fault of one document. -/
structure Diagnostic where
  document : String
  source : String
  /-- Where the paginated field stands, or the whole definition if the field was not found. -/
  span : Option Span
  severity : Severity
  stage : Stage
  fault : Fault
deriving DecidableEq

namespace Diagnostic

/-- The diagnostic for a fault that leaves a document as it was written. -/
def ofFault (document : Document) (span : Option Span) (stage : Stage) (fault : Fault) :
    Diagnostic :=
  { document := document.name
    source := document.source
    span := span <|> document.span?
    severity := .error
    stage
    fault }

def code (diagnostic : Diagnostic) : String :=
  diagnostic.fault.code

def render (diagnostic : Diagnostic) : String :=
  diagnostic.source ++ ": " ++ diagnostic.severity.render ++ " [" ++ diagnostic.code ++ "] in "
    ++ quoted diagnostic.document ++ " during " ++ diagnostic.stage.render ++ ": "
    ++ diagnostic.fault.message

/-- Lines that show diagnostics, numbered from one. -/
def listing (lines : List String) : String :=
  if lines.isEmpty then
    "(no diagnostics)"
  else
    "\n".intercalate
      (lines.mapIdx fun index line => "[" ++ toString (index + 1) ++ "] " ++ line)

end Diagnostic

end QueryPaging
