import QueryPaging.Artifact
import QueryPaging.Command.Options
import QueryPaging.Pipeline
import QueryPaging.Project
import QueryPaging.RawText
import QueryPaging.Text.Blank

/-!
# Output

What is printed of a run. People get the documents and a summary, and the diagnostics on the other
channel. Tools get a single JSON value with its keys in order.
-/

namespace QueryPaging

/-- What a program prints, by channel. -/
structure Printed where
  output : String
  errors : String
deriving DecidableEq

def linesText (lines : List String) : String :=
  String.join (lines.map (· ++ "\n"))

/-! ## For people -/

namespace Document

/-- The document's name and where it comes from. -/
def title (document : Document) : String :=
  let origin := match document.generated with
    | some provenance => ", generated from " ++ provenance.fragment
    | none => ""
  document.name ++ " (" ++ document.source ++ origin ++ ")"

/-- The lines that show a document, with an empty one at the end. -/
def shownLines (style : Style) (document : Document) : List String :=
  let text := String.ofList (Blank.trimEnd (renderDocument document.definitions).toList)
  [style.paint .dimmed "#" ++ " " ++ style.paint .bold document.title, text]
    ++ (document.refetch.map fun spec => style.paint .cyan "refetch:" ++ " " ++ spec.render).toList
    ++ [""]

end Document

namespace Diagnostic

/-- The lines that show a diagnostic which belongs at a place. -/
def shownLines (style : Style) (place : String) (diagnostic : Diagnostic) : List String :=
  let label := "error[" ++ diagnostic.code ++ "]"
  [style.paint .bold place ++ " " ++ style.paint .red label ++ " " ++ diagnostic.fault.message,
    "  " ++ style.paint .dimmed "→" ++ " " ++ quoted diagnostic.document
      ++ " left as authored (" ++ diagnostic.stage.render ++ ")"]

end Diagnostic

namespace Style

/-- A line that tells of success. -/
def success (style : Style) (text : String) : String :=
  style.paint .green "✓" ++ " " ++ text

/-- A line that tells of failure. -/
def failure (style : Style) (text : String) : String :=
  style.paint .red "✗" ++ " " ++ text

end Style

namespace Report

def diagnosticLines (style : Style) (project : Project) (report : Report) : List String :=
  report.diagnostics.flatMap fun diagnostic =>
    diagnostic.shownLines style (project.location diagnostic)

/-- The line that sums up a compilation. -/
def compileSummary (style : Style) (report : Report) : String :=
  let generated := report.generated.length
  let queries := if generated = 1 then "query" else "queries"
  if report.hasErrors then
    style.failure (toString report.diagnostics.length ++ " document(s) left as authored")
  else
    style.success
      (toString (report.documents.length - generated) ++ " document(s) compiled, "
        ++ toString generated ++ " pagination " ++ queries ++ " generated")

/-- The authored documents that page. -/
def paginated (report : Report) : List Document :=
  report.documents.filter fun document => !document.isGenerated && document.refetch.isSome

/-- The lines that sum up a check. -/
def checkSummary (style : Style) (project : Project) (report : Report) : List String :=
  let documents := toString project.documents.length ++ " document(s)"
  if report.hasErrors then
    ["", style.failure (toString report.diagnostics.length ++ " error(s) in " ++ documents)]
  else
    [style.success
      (documents ++ " checked, " ++ toString report.paginated.length ++ " paginated")]

/-- What people get to see of a run. -/
def forPeople (style : Style) (subcommand : Subcommand) (project : Project) (report : Report) :
    Printed :=
  let lines := match subcommand with
    | .compile =>
        report.documents.flatMap (·.shownLines style) ++ [report.compileSummary style]
    | .check => report.checkSummary style project
  { output := linesText lines
    errors := linesText (report.diagnosticLines style project) }

end Report

/-! ## For tools -/

/-- A value that may be missing, which is then null. -/
def Json.nullable {α : Type} (write : α → Json) (value : Option α) : Json :=
  (value.map write).getD .null

namespace Document

def toJson (document : Document) : Json :=
  .object
    [("name", .string document.name),
      ("source", .string document.source),
      ("kind", Json.nullable (fun kind => .string kind.render) document.kind?),
      ("generatedFrom",
        Json.nullable (fun provenance => .string provenance.fragment) document.generated),
      ("text", .string (renderDocument document.definitions)),
      ("raw", .string (rawText document.definitions)),
      ("refetch", Json.nullable RefetchSpec.toJson document.refetch)]

end Document

namespace Diagnostic

def toJson (place : String) (diagnostic : Diagnostic) : Json :=
  let span (range : Span) : Json :=
    .object [("start", .integer range.start), ("end", .integer range.stop)]
  .object
    [("document", .string diagnostic.document),
      ("source", .string diagnostic.source),
      ("location", .string place),
      ("span", Json.nullable span diagnostic.span),
      ("severity", .string diagnostic.severity.render),
      ("stage", .string diagnostic.stage.render),
      ("code", .string diagnostic.code),
      ("message", .string diagnostic.fault.message)]

end Diagnostic

namespace Report

/-- The records of the generated queries. -/
def artifacts (schema : Schema) (report : Report) : List Artifact :=
  report.generated.filterMap (Artifact.build? schema)

def toJson (subcommand : Subcommand) (project : Project) (report : Report) : Json :=
  let diagnostics := report.diagnostics.map fun diagnostic =>
    diagnostic.toJson (project.location diagnostic)
  match subcommand with
  | .compile =>
      .object
        [("documents", .array (report.documents.map Document.toJson)),
          ("artifacts", .array ((report.artifacts project.schema).map Artifact.toJson)),
          ("diagnostics", .array diagnostics)]
  | .check =>
      .object
        [("documents", .integer project.documents.length),
          ("diagnostics", .array diagnostics)]

/-- What tools get to see of a run. -/
def forTools (subcommand : Subcommand) (project : Project) (report : Report) : Printed :=
  { output := linesText [(report.toJson subcommand project).sorted.pretty]
    errors := "" }

def print (style : Style) (options : Options) (project : Project) (report : Report) : Printed :=
  match options.format with
  | .human => report.forPeople style options.subcommand project
  | .json => report.forTools options.subcommand project

end Report

end QueryPaging
