import Lingo.Command

/-!
# The program

Reads the file that the command line names, and prints the response. Entries of
the log go to the error output: warnings, what scripts print, and the trace.
-/

namespace Lingo.Program

/-- Name of the environment variable that limits the instructions of a call. -/
def stepLimitVariable : String := "LINGO_STEP_LIMIT"

/-- Why a file could not be read. -/
def cause : IO.Error → String
  | .noFileOrDirectory .. => "No such file or directory (os error 2)"
  | e => toString e

/-- The text of a file. -/
def readText (path : String) : IO (Except String String) := do
  try
    return .ok (← IO.FS.readFile path)
  catch e =>
    return .error (cause e)

/-- The line for a log entry, if it is of interest. -/
def logLine? (entry : LogEntry) : Option String :=
  let shown :=
    match entry.level, entry.target with
    | .warn, _ | .error, _ => true
    | _, .put | _, .trace => true
    | _, _ => false
  if shown then some entry.message else none

end Lingo.Program

open Lingo Program in
/-- Answers the command line. -/
def main (args : List String) : IO UInt32 := do
  let request := Request.ofArgs args
  let contents ←
    match request.path? with
    | some path => readText path
    | none => pure (.ok "")
  let stepLimit? ← IO.getEnv stepLimitVariable
  let response := request.respond contents stepLimit?
  for line in response.log.filterMap logLine? do
    IO.eprintln line
  IO.print response.output
  for line in response.errors do
    IO.eprintln line
  return response.exitCode.toUInt32
