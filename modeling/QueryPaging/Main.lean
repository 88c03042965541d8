import QueryPaging.Command.Running

/-!
# The program

The command line over the files, the environment and the channels of the system.
-/

namespace QueryPaging.Host

/-- Why a file could not be read, as the system tells it. -/
def readFault : IO.Error → ReadFault
  | .noFileOrDirectory _ _ _ => .missing
  | .inappropriateType _ 20 _ => .notDirectory
  | .inappropriateType _ _ _ => .isDirectory
  | .permissionDenied _ _ _ => .denied
  | _ => .missing

def read (path : String) : IO (Except ReadFault String) := do
  try
    match String.fromUTF8? (← IO.FS.readBinFile path) with
    | some text => return .ok text
    | none => return .error .notText
  catch fault =>
    return .error (readFault fault)

def kind? (path : String) : IO (Option FileKind) := do
  try
    match (← (System.mkFilePath [path]).metadata).type with
    | .file => return some .file
    | .dir => return some .directory
    | _ => return none
  catch _ =>
    return none

def list (path : String) : IO (Except ReadFault (List String)) := do
  try
    let entries ← (System.mkFilePath [path]).readDir
    return .ok (entries.toList.map (·.fileName))
  catch fault =>
    return .error (readFault fault)

def files : FileAccess IO :=
  { read, kind?, list }

/-- What the program finds around it. -/
def surroundings : IO (Surroundings IO) := do
  return {
    files
    workingDirectory := (← IO.currentDir).toString
    colours := {
      noColor := ← IO.getEnv "NO_COLOR"
      clicolorForce := ← IO.getEnv "CLICOLOR_FORCE"
      clicolor := ← IO.getEnv "CLICOLOR"
      isTerminal := ← (← IO.getStdout).isTty }
    workers := 1 }

end QueryPaging.Host

/-- Run the program on its arguments. -/
def main (arguments : List String) : IO UInt32 := do
  let outcome ← QueryPaging.Command.run (← QueryPaging.Host.surroundings) arguments
  (← IO.getStdout).putStr outcome.printed.output
  (← IO.getStderr).putStr outcome.printed.errors
  return outcome.exitCode.number.toUInt32
