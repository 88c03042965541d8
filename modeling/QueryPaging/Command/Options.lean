import QueryPaging.Command.Style

/-!
# Options

What a command line asks for: a subcommand, the form of its output, and how the program goes about
it.
-/

namespace QueryPaging

def programName : String := "graphql-paginate"

def programVersion : String := "0.1.0"

/-- What the program can do. -/
inductive Subcommand where
  /-- Print every resulting document. -/
  | compile
  /-- Report problems alone. -/
  | check
deriving DecidableEq

namespace Subcommand

def word : Subcommand → String
  | .compile => "compile"
  | .check => "check"

def summary : Subcommand → String
  | .compile => "Print every compiled document with its refetch spec"
  | .check => "Run the pass and report problems without printing documents"

def all : List Subcommand :=
  [.compile, .check]

def ofWord? (word : String) : Option Subcommand :=
  all.find? (·.word == word)

end Subcommand

inductive OutputFormat where
  /-- For people, with colours. -/
  | human
  /-- For tools. -/
  | json
deriving DecidableEq

namespace OutputFormat

def word : OutputFormat → String
  | .human => "human"
  | .json => "json"

def all : List OutputFormat :=
  [.human, .json]

def ofWord? (word : String) : Option OutputFormat :=
  all.find? (·.word == word)

end OutputFormat

/-- What the command line asks for. -/
structure Options where
  subcommand : Subcommand
  format : OutputFormat
  /-- The configuration file, if it is not to be searched for. -/
  configPath : Option String
  workers : Option Nat
  colours : ColourFlags
deriving DecidableEq

end QueryPaging
