import QueryPaging.Command.Arguments
import QueryPaging.Command.Output

/-!
# Running a command line

A command line is run over whatever answers questions about files. It ends with what is printed and
with an exit code that tells apart faults in documents from faults in the project.
-/

namespace QueryPaging

/-- How a program ends. -/
inductive ExitCode where
  /-- Every document compiled. -/
  | success
  /-- A document was left as authored. -/
  | documentErrors
  /-- The configuration or the command line is of no use. -/
  | configError
  | schemaError
  /-- A file cannot be read. -/
  | readError
  /-- A document file is not a document. -/
  | parseError
deriving DecidableEq

def ExitCode.number : ExitCode → Nat
  | .success => 0
  | .documentErrors => 1
  | .configError => 2
  | .schemaError => 3
  | .readError => 4
  | .parseError => 5

def LoadFault.exitCode : LoadFault → ExitCode
  | .noConfig _ => .configError
  | .unreadableConfig _ => .configError
  | .config _ _ => .configError
  | .pattern _ => .configError
  | .unreadable _ => .readError
  | .schema _ => .schemaError
  | .malformedDocument _ => .parseError

def Report.exitCode (report : Report) : ExitCode :=
  if report.hasErrors then .documentErrors else .success

/-- What comes of a command line. -/
structure Outcome where
  exitCode : ExitCode
  printed : Printed
deriving DecidableEq

/-- What a program finds around it. -/
structure Surroundings (m : Type → Type) where
  files : FileAccess m
  workingDirectory : String
  colours : ColourSettings
  /-- The number of workers when none is asked for. -/
  workers : Nat

namespace Command

/-- The outcome of a run that cannot take place. -/
def fatal (style : Style) (format : OutputFormat) (exitCode : ExitCode) (message : String) :
    Outcome :=
  let line := match format with
    | .human => style.failure message
    | .json =>
        (Json.object
          [("error", .string message), ("exitCode", .integer exitCode.number)]).render
  ⟨exitCode, { output := "", errors := linesText [line] }⟩

def runProject (style : Style) (options : Options) (workers : Nat) (project : Project) :
    Outcome :=
  match Pipeline.run project.schema project.config.identity workers project.documents with
  | .error fault => fatal style options.format .schemaError fault.message
  | .ok report => ⟨report.exitCode, report.print style options project⟩

variable {m : Type → Type} [Monad m]

/-- Do what a command line asks for. -/
def runOptions (surroundings : Surroundings m) (options : Options) : m Outcome := do
  let style := Style.choose options.colours surroundings.colours
  let workers := options.workers.getD surroundings.workers
  let loading :=
    Project.load surroundings.files surroundings.workingDirectory options.configPath
  match ← loading.run with
  | .error fault => return fatal style options.format fault.exitCode fault.message
  | .ok project => return runProject style options workers project

/-- The outcome of arguments that do not lead to a subcommand. -/
def stopped : ArgumentStop → Outcome
  | .help level => ⟨.success, { output := level.help, errors := "" }⟩
  | .version =>
      ⟨.success, { output := programName ++ " " ++ programVersion ++ "\n", errors := "" }⟩
  | .usage fault => ⟨.configError, { output := "", errors := fault.message }⟩

def run (surroundings : Surroundings m) (arguments : List String) : m Outcome :=
  match Options.ofArguments arguments with
  | .error stop => return stopped stop
  | .ok options => runOptions surroundings options

end Command

end QueryPaging
