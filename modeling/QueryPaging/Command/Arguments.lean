import QueryPaging.Command.Flag
import QueryPaging.Text.Decimal

/-!
# Command line arguments

The arguments name a subcommand. Options may stand before it and after it; those that only it knows
stand after it. An option is given once at either place, and where both places give one that takes a
value, the later place counts.

Reading stops at the first argument that cannot be used, or that asks for help.
-/

namespace QueryPaging

/-! ## Faults -/

/-- Why an argument cannot be used. -/
inductive UsageCause where
  | noArguments
  | missingSubcommand
  | unknownSubcommand (word : String)
  | unexpected (argument : String)
  | missingValue (flag : Flag)
  | idleValue (flag : Flag) (value : String)
  | badNumber (value : String)
  | badFormat (value : String)
  | repeated (flag : Flag)
  | conflict
deriving DecidableEq

/-- An argument that cannot be used, and the level at which it stands. -/
structure UsageFault where
  level : Level
  cause : UsageCause
deriving DecidableEq

namespace UsageCause

/-- A piece of a message that quotes an argument. -/
def mark (text : String) : String :=
  "'" ++ text ++ "'"

def message : UsageCause → String
  | .noArguments => "a command is required"
  | .missingSubcommand => mark programName ++ " requires a subcommand but one was not provided"
  | .unknownSubcommand word => "unrecognized subcommand " ++ mark word
  | .unexpected argument => "unexpected argument " ++ mark argument ++ " found"
  | .missingValue flag =>
      "a value is required for " ++ mark flag.shown ++ " but none was supplied"
  | .idleValue flag value =>
      "unexpected value " ++ mark value ++ " for " ++ mark flag.shown
        ++ " found; no more were expected"
  | .badNumber value =>
      "invalid value " ++ mark value ++ " for " ++ mark Flag.workers.shown
        ++ ": it is not a number of workers"
  | .badFormat value =>
      "invalid value " ++ mark value ++ " for " ++ mark Flag.format.shown
        ++ "\n  [possible values: " ++ ", ".intercalate (OutputFormat.all.map OutputFormat.word)
        ++ "]"
  | .repeated flag => "the argument " ++ mark flag.shown ++ " cannot be used multiple times"
  | .conflict =>
      "the argument " ++ mark Flag.color.shown ++ " cannot be used with "
        ++ mark Flag.noColor.shown

end UsageCause

namespace UsageFault

def message (fault : UsageFault) : String :=
  match fault.cause with
  | .noArguments => fault.level.help
  | cause =>
      "error: " ++ cause.message ++ "\n\n" ++ fault.level.usage
        ++ "\n\nFor more information, try '--help'.\n"

end UsageFault

/-- Why the arguments do not lead to a subcommand. -/
inductive ArgumentStop where
  | help (level : Level)
  | version
  | usage (fault : UsageFault)
deriving DecidableEq

/-! ## Reading a level -/

structure LevelOptions where
  config : Option String
  workers : Option Nat
  format : Option OutputFormat
  color : Bool
  noColor : Bool
deriving DecidableEq

namespace LevelOptions

def empty : LevelOptions :=
  { config := none, workers := none, format := none, color := false, noColor := false }

def has (options : LevelOptions) : Flag → Bool
  | .config => options.config.isSome
  | .workers => options.workers.isSome
  | .format => options.format.isSome
  | .color => options.color
  | .noColor => options.noColor
  | .help => false
  | .version => false

/-- The number of workers a text spells. A plus sign may open it, and it has to fit 64 bits. -/
def workers? (text : String) : Option Nat :=
  let digits := match text.toList with
    | '+' :: digits => digits
    | digits => digits
  if digits.isEmpty || digits.any (!·.isDigit) then
    none
  else
    let number := Decimal.magnitude digits
    if number < UInt64.size then some number else none

def withValue (flag : Flag) (value : String) (options : LevelOptions) :
    Except UsageCause LevelOptions :=
  match flag with
  | .config =>
      if value.isEmpty then .error (.missingValue .config)
      else .ok { options with config := some value }
  | .workers =>
      match workers? value with
      | some count => .ok { options with workers := some count }
      | none => .error (.badNumber value)
  | .format =>
      match OutputFormat.ofWord? value with
      | some format => .ok { options with format := some format }
      | none => .error (.badFormat value)
  | _ => .error (.idleValue flag value)

/-- The options with one more that takes no value. -/
def withSwitch (flag : Flag) (options : LevelOptions) : LevelOptions :=
  match flag with
  | .color => { options with color := true }
  | .noColor => { options with noColor := true }
  | _ => options

end LevelOptions

/-- What an argument looks like. -/
inductive ArgumentShape where
  | word (text : String)
  /-- Two dashes by themselves: no options follow. -/
  | dashes
  /-- Two dashes and a word, with a value after an equals sign. -/
  | long (name : String) (value : Option String)
  /-- A dash and a letter, with a value right after it. -/
  | short (letter : Char) (value : Option String)
deriving DecidableEq

namespace ArgumentShape

/-- The texts before and after the first equals sign. -/
def splitValue (text : List Char) : String × Option String :=
  let name := text.takeWhile (· != '=')
  match text.dropWhile (· != '=') with
  | [] => (String.ofList name, none)
  | _ :: value => (String.ofList name, some (String.ofList value))

def ofText (text : String) : ArgumentShape :=
  match text.toList with
  | ['-', '-'] => .dashes
  | '-' :: '-' :: rest =>
      let (name, value) := splitValue rest
      .long name value
  | ['-'] => .word text
  | ['-', letter] => .short letter none
  | '-' :: letter :: '=' :: value => .short letter (some (String.ofList value))
  | '-' :: letter :: value => .short letter (some (String.ofList value))
  | _ => .word text

def isWord : ArgumentShape → Bool
  | .word _ => true
  | _ => false

/-- The option an argument gives at a level, with the value written into the argument. What follows
a letter counts only where the option takes a value. -/
def flag? (level : Level) : ArgumentShape → Option (Flag × Option String)
  | .long name value => (level.ofWord? name).map (·, value)
  | .short letter value =>
      (level.ofLetter? letter).map fun flag =>
        (flag, if flag.valueName?.isSome then value else none)
  | _ => none

end ArgumentShape

/-- How the arguments of a level end: with a word and what follows it, or after two dashes. -/
inductive LevelEnd where
  | word (text : String) (rest : List String)
  | dashes (rest : List String)
  | finished
deriving DecidableEq

namespace Level

def stop {Result : Type} (level : Level) : Except UsageCause Result → Except ArgumentStop Result
  | .ok result => .ok result
  | .error cause => .error (.usage ⟨level, cause⟩)

/-- Take in an option. The outcome tells whether the argument after it was its value. -/
def take (level : Level) (flag : Flag) (written next : Option String) (options : LevelOptions) :
    Except ArgumentStop (LevelOptions × Bool) :=
  match flag.valueName?, written with
  | none, some value => level.stop (.error (.idleValue flag value))
  | none, none =>
      match flag with
      | .help => .error (.help level)
      | .version => .error .version
      | _ =>
          if options.has flag then level.stop (.error (.repeated flag))
          else .ok (options.withSwitch flag, false)
  | some _, _ =>
      let usable := next.filter fun text => (ArgumentShape.ofText text).isWord
      match written, usable with
      | none, none => level.stop (.error (.missingValue flag))
      | some value, _ => level.stop (entered flag value false)
      | none, some value => level.stop (entered flag value true)
where
  /-- The options with a value entered, unless there is one already. -/
  entered (flag : Flag) (value : String) (usesNext : Bool) :
      Except UsageCause (LevelOptions × Bool) := do
    if options.has flag then throw (.repeated flag)
    return (← options.withValue flag value, usesNext)

/-- Read the options of a level up to the first word that is no value. -/
def read (level : Level) (options : LevelOptions) (arguments : List String) :
    Except ArgumentStop (LevelOptions × LevelEnd) :=
  match arguments with
  | [] => .ok (options, .finished)
  | text :: rest =>
      match ArgumentShape.ofText text with
      | .word _ => .ok (options, .word text rest)
      | .dashes => .ok (options, .dashes rest)
      | shape =>
          match shape.flag? level with
          | none => level.stop (.error (.unexpected text))
          | some (flag, written) => do
              let (options, usesNext) ← level.take flag written rest.head? options
              if usesNext then read level options rest.tail else read level options rest
termination_by arguments.length

end Level

/-! ## Reading all arguments -/

namespace Options

/-- The options of both levels put together. -/
def merge (subcommand : Subcommand) (outer inner : LevelOptions) : Options :=
  { subcommand
    format := inner.format.getD .human
    configPath := inner.config <|> outer.config
    workers := inner.workers <|> outer.workers
    colours := ⟨outer.color || inner.color, outer.noColor || inner.noColor⟩ }

/-- Asking for colours and refusing them exclude each other at a level. -/
def checkColours (level : Level) (options : LevelOptions) : Except ArgumentStop Unit :=
  if options.color && options.noColor then level.stop (.error .conflict) else .ok ()

def helpOn : List String → Except ArgumentStop Level
  | [] => .ok .program
  | word :: _ =>
      match Subcommand.ofWord? word with
      | some subcommand => .ok (.subcommand subcommand)
      | none =>
          if word == "help" then .ok .program
          else Level.program.stop (.error (.unknownSubcommand word))

def readSubcommand (subcommand : Subcommand) (outer : LevelOptions) (arguments : List String) :
    Except ArgumentStop Options := do
  let level := Level.subcommand subcommand
  let (inner, ending) ← level.read LevelOptions.empty arguments
  match ending with
  | .word text _ => level.stop (.error (.unexpected text))
  | .dashes (text :: _) => level.stop (.error (.unexpected text))
  | .dashes [] => pure ()
  | .finished => pure ()
  checkColours level inner
  checkColours .program outer
  return merge subcommand outer inner

/-- Read the arguments of the program. -/
def ofArguments (arguments : List String) : Except ArgumentStop Options := do
  if arguments.isEmpty then
    throw (.usage ⟨.program, .noArguments⟩)
  let (outer, ending) ← Level.program.read LevelOptions.empty arguments
  match ending with
  | .finished => throw (.usage ⟨.program, .missingSubcommand⟩)
  | .dashes [] => throw (.usage ⟨.program, .missingSubcommand⟩)
  | .dashes (text :: _) => throw (.usage ⟨.program, .unexpected text⟩)
  | .word text rest =>
      match Subcommand.ofWord? text with
      | some subcommand => readSubcommand subcommand outer rest
      | none =>
          if text == "help" then
            throw (.help (← helpOn rest))
          else
            throw (.usage ⟨.program, .unknownSubcommand text⟩)

end Options

end QueryPaging
