import QueryPaging.Command.Options

/-!
# Flags

The options an argument can give, where they may stand, and the help on them.
-/

namespace QueryPaging


/-- The options that an argument may give. -/
inductive Flag where
  | config
  | workers
  | color
  | noColor
  | format
  | help
  | version
deriving DecidableEq

namespace Flag

/-- The word that stands for an option after two dashes. -/
def word : Flag → String
  | .config => "config"
  | .workers => "workers"
  | .color => "color"
  | .noColor => "no-color"
  | .format => "format"
  | .help => "help"
  | .version => "version"

/-- The letter that stands for an option after one dash. -/
def letter? : Flag → Option Char
  | .config => some 'c'
  | .workers => some 'w'
  | .color => none
  | .noColor => none
  | .format => some 'f'
  | .help => some 'h'
  | .version => some 'V'

/-- What the value of an option is called, if it takes one. -/
def valueName? : Flag → Option String
  | .config => some "FILE"
  | .workers => some "WORKERS"
  | .format => some "FORMAT"
  | _ => none

def summary : Flag → String
  | .config => "Path to the config file (default: search upwards from the working directory)"
  | .workers => "Worker threads (default: 1)"
  | .color => "Force colored output even when not a TTY"
  | .noColor => "Disable colored output"
  | .format => "Output format [default: human] [possible values: human, json]"
  | .help => "Print help"
  | .version => "Print version"

/-- The option as usage messages show it. -/
def shown (flag : Flag) : String :=
  "--" ++ flag.word ++ ((flag.valueName?.map fun name => " <" ++ name ++ ">").getD "")

end Flag

/-- Where an argument stands: before a subcommand is named, or after it. -/
inductive Level where
  | program
  | subcommand (subcommand : Subcommand)
deriving DecidableEq

namespace Level

def flags : Level → List Flag
  | .program => [.config, .workers, .color, .noColor, .help, .version]
  | .subcommand _ => [.format, .config, .workers, .color, .noColor, .help]

def ofWord? (level : Level) (word : String) : Option Flag :=
  level.flags.find? (·.word == word)

def ofLetter? (level : Level) (letter : Char) : Option Flag :=
  level.flags.find? (·.letter? == some letter)

/-- How the arguments of a level are put together. -/
def usage : Level → String
  | .program => "Usage: " ++ programName ++ " [OPTIONS] <COMMAND>"
  | .subcommand named => "Usage: " ++ programName ++ " " ++ named.word ++ " [OPTIONS]"

def flagLine (flag : Flag) : String :=
  (match flag.letter? with
    | some letter => "  -" ++ String.singleton letter ++ ", "
    | none => "      ") ++ flag.shown ++ "  " ++ flag.summary

def help (level : Level) : String :=
  let options := "Options:" :: level.flags.map flagLine
  let lines := match level with
    | .program =>
        ["Compile @paginate fields into refetchable GraphQL documents", "", level.usage, "",
            "Commands:"]
          ++ Subcommand.all.map (fun one => "  " ++ one.word ++ "  " ++ one.summary)
          ++ ["  help  Print this message or the help of the given command", ""] ++ options
    | .subcommand named => [named.summary, "", level.usage, ""] ++ options
  "\n".intercalate lines ++ "\n"

end Level

end QueryPaging
