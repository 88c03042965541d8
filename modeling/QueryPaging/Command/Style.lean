/-!
# Coloured text

Texts on a terminal may carry colours. Flags decide first whether they do, then the environment,
then whether there is a terminal at all.
-/

namespace QueryPaging

/-- The ways in which a text stands out. -/
inductive Tint where
  | bold
  | dimmed
  | red
  | green
  | cyan
deriving DecidableEq

namespace Tint

/-- The number of a tint in escape sequences. -/
def code : Tint → String
  | .bold => "1"
  | .dimmed => "2"
  | .red => "31"
  | .green => "32"
  | .cyan => "36"

end Tint

/-- Whether texts are coloured. -/
inductive Style where
  | plain
  | coloured
deriving DecidableEq

namespace Style

/-- A text with a tint, which ends with the text. -/
def paint (tint : Tint) (text : String) : Style → String
  | .plain => text
  | .coloured => "\x1b[" ++ tint.code ++ "m" ++ text ++ "\x1b[0m"

end Style

structure ColourFlags where
  /-- Whether colours are asked for. -/
  wanted : Bool
  refused : Bool
deriving DecidableEq

/-- What the environment says about colours. -/
structure ColourSettings where
  /-- Colours are refused when this is there at all. -/
  noColor : Option String
  /-- Colours are asked for when this is there, unless it is zero. -/
  clicolorForce : Option String
  /-- Zero refuses the colours that a terminal would get. -/
  clicolor : Option String
  /-- Whether the output goes to a terminal. -/
  isTerminal : Bool
deriving DecidableEq

namespace ColourSettings

/-- Whether the environment by itself asks for colours. -/
def wantsColour (settings : ColourSettings) : Bool :=
  settings.noColor.isNone
    && (settings.clicolorForce.any (· != "0")
      || (settings.isTerminal && settings.clicolor != some "0"))

end ColourSettings

namespace Style

def choose (flags : ColourFlags) (settings : ColourSettings) : Style :=
  if flags.wanted || (!flags.refused && settings.wantsColour) then .coloured else .plain

end Style

end QueryPaging
