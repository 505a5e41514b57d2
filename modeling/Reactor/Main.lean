import Reactor.Command.Perform

/-!
# The command line

Reads the arguments and the surroundings, carries out the command and sets the exit code.
-/

namespace Reactor.Command

/-- What is printed when the arguments ask for help or cannot be understood. -/
def usageText : String :=
  "\n".intercalate [
    "Usage: tempo [OPTIONS] <COMMAND>",
    "",
    "Commands:",
    "  run     Evaluate a program, then apply scripted stream pushes",
    "  live    Evaluate a program while a timer drives the Time stream",
    "  config  Print the effective configuration",
    "  help    Print this message",
    "",
    "Options:",
    "      --config <CONFIG>                    Path to config file",
    "      --max-frame-depth <MAX_FRAME_DEPTH>  Frame depth limit",
    "  -h, --help                               Print help",
    ""]

def variableNames : List String :=
  ["TEMPO_CONFIG_PATH", "TEMPO_MAX_FRAME_DEPTH", "TEMPO_MAX_NESTING", "TEMPO_RUN_BUDGET",
    "TEMPO_LOG_FILTER"]

def processVariables : IO Variables :=
  variableNames.filterMapM fun name => do
    return (← IO.getEnv name).map (name, ·)

def readFile (path : String) : IO (Option String) := do
  try return some (← IO.FS.readFile path) catch _ => return none

def processWorld : IO (World IO) := do
  return {
    read := readFile
    print := IO.print
    wait := fun milliseconds => IO.sleep milliseconds.toUInt32
    environment := ← processVariables }

end Reactor.Command

open Reactor.Command in
def main (arguments : List String) : IO UInt32 := do
  match Invocation.ofArguments arguments with
  | .error .help =>
    IO.print usageText
    return 0
  | .error .misuse =>
    IO.eprint usageText
    return 2
  | .ok invocation =>
    match ← (invocation.perform (← processWorld)).run with
    | .ok () => return 0
    | .error message =>
      IO.eprintln s!"Error: {message}"
      return 1
