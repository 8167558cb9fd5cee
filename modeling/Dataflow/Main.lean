import Dataflow.CommandLine.Report

/-! # The program

Reads the arguments and the file, prints the report, and exits with a code that says how it
went. -/

namespace Dataflow.CommandLine

/-- A summary of the arguments. -/
def usage : String :=
  "usage: compile --spec FILE [--instantiate OP=N]... [--max-subflow-depth N] [--compact]"

/-- The text of a file, if it can be read. -/
def readText (path : String) : IO (Option String) := do
  try
    return some (← IO.FS.readFile path)
  catch _ =>
    return none

/-- Carries out what the arguments ask for, and gives the exit code. -/
def execute (arguments : List String) : IO Nat := do
  match Command.ofArguments arguments with
  | .error e =>
    IO.eprintln e.message
    return 2
  | .ok .help =>
    IO.println usage
    return 0
  | .ok (.compile options) =>
    match options.output (← readText options.spec) with
    | .ok report =>
      IO.println report
      return 0
    | .error e =>
      IO.eprintln e.message
      return e.exitCode

end Dataflow.CommandLine

/-- The command line. -/
def main (arguments : List String) : IO UInt32 :=
  return (← Dataflow.CommandLine.execute arguments).toUInt32
