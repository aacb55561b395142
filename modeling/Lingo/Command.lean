import Lingo.Assembly.Assemble
import Lingo.Assembly.Listing
import Lingo.Run.Host

/-!
# The command line

`Request.ofArgs` reads the arguments of the command line, and `Request.respond`
answers a request, given the text of the file that it names. Reading the file
and printing is left to `main`.

The exit code is 0 for success, 1 when the input is at fault, 3 when the script is,
and 101 when a run breaks off.
-/

namespace Lingo

/-- What a command line asks for. -/
inductive Request where
  /-- To be told how to ask, because nothing was asked. -/
  | nothing
  | help
  | unknown (command : String)
  /-- A command without its operands. -/
  | incomplete (command operands missing : String)
  /-- To check a library and summarize it. -/
  | assemble (path : String)
  /-- To print the annotated listing of a library. -/
  | list (path : String)
  /-- To call a handler of a library and print its result. -/
  | run (path handler : String) (args : List String) (traced : Bool)
  deriving DecidableEq, Repr

/-- What a command prints, and its exit code. -/
structure Response where
  exitCode : UInt8 := 0
  output : String := ""
  /-- Lines of the error output. -/
  errors : List String := []
  /-- What the machine reported, first entry first. -/
  log : List LogEntry := []

namespace Request

/-- The option that asks for a trace; it may stand anywhere behind `run`. -/
def traceOption : String := "--trace"

/-- How to ask for a command. -/
def pattern (command operands : String) : String :=
  "lingo " ++ command ++ " " ++ operands

/-- Operands of the commands that read a library only. -/
def libraryOperand : String := "<input.lasm>"

def runOperands : String := "<input.lasm> <handler> [args] [--trace]"

/-- What the arguments of a command line ask for. -/
def ofArgs : List String → Request
  | [] => nothing
  | "assemble" :: rest =>
    match rest with
    | path :: _ => assemble path
    | [] => incomplete "assemble" libraryOperand "an input file"
  | "list" :: rest =>
    match rest with
    | path :: _ => list path
    | [] => incomplete "list" libraryOperand "an input file"
  | "run" :: rest =>
    match rest.filter (· != traceOption) with
    | path :: handler :: args => run path handler args (rest.contains traceOption)
    | _ => incomplete "run" runOperands "an input file and a handler name"
  | word :: _ => if ["--help", "-h", "help"].contains word then help else unknown word

/-- The file that has to be read for a request. -/
def path? : Request → Option String
  | assemble path | list path | run path _ _ _ => some path
  | _ => none

end Request

namespace Response

def failure (exitCode : UInt8) (errors : List String) : Response :=
  { exitCode, errors }

/-- There is nothing to print when a run breaks off. -/
def brokenOff : Response :=
  .failure 101 []

/-- Lines of the output. -/
def lines (ls : List String) : Response :=
  { output := String.join (ls.map (· ++ "\n")) }

end Response

namespace Command

/-- How to use the command line. -/
def usage : List String :=
  ["Usage: lingo <command> [args]",
   "",
   "Commands:",
   "  assemble <input.lasm>                          Check a library and summarize it",
   "  list <input.lasm>                              Print the annotated listing",
   "  run <input.lasm> <handler> [args] [--trace]    Call a handler and print its result",
   "",
   "Arguments to run are integers, floats, \"strings\" or #symbols.",
   "Environment: LINGO_LOG (log filter), LINGO_STEP_LIMIT (instructions per call)."]

/-- A text without the quotes that surround it, if it has both. -/
def unquoted (s : String) : String :=
  match s.toList with
  | '"' :: rest => if rest.getLast? == some '"' then String.ofList rest.dropLast else s
  | _ => s

/-- The value that an argument spells: `#` starts a symbol, numbers are numbers,
and everything else is a text. -/
def argValue (s : String) : Value :=
  match s.toList with
  | '#' :: name => .symbol (String.ofList name)
  | cs =>
    match Number.readInt32 cs, Number.readDouble cs with
    | some n, _ => .int n
    | none, some x => .float x
    | none, none => .text (unquoted s)

/-! ## Summaries -/

/-- The line of a summary for a script. -/
def scriptSummary (lib : Library) (script : Script) : String :=
  let label := if script.name.isEmpty then "" else " " ++ Text.quote script.name
  let handlers := script.handlers.toList.map fun h => lib.names.name h.nameId
  "  script " ++ toString script.member.toInt ++ " " ++ script.kind.name ++ label ++ ": " ++
    ", ".intercalate handlers

/-- Summary of the library in a file. -/
def summary (path : String) (lib : Library) : List String :=
  let scripts := lib.scripts.toList
  let handlers := scripts.flatMap fun s => s.handlers.toList
  let bytes := handlers.foldl (fun n h => n + h.byteLength) 0
  ["OK: " ++ path,
   "library " ++ toString lib.number.toInt ++ " " ++ Text.quote lib.name ++
     s!" (version {lib.version}): {scripts.length} scripts, {handlers.length} handlers, " ++
     s!"{bytes} bytes"] ++
    scripts.map (scriptSummary lib)

/-! ## Runs -/

/-- The machine that runs a library as its movie. -/
def machineFor (lib : Library) (stepLimit? : Option String) (traced : Bool) : Machine where
  config := .ofEnvironment stepLimit?
  movie := some lib
  tracer := if traced then some .log else none

/-- Calls a handler of a library. -/
def runHandler (path handler : String) (args : List String) (m : Machine) : Response :=
  if (m.findHandler? handler).isNone && !m.hasBuiltin handler then
    .failure 1 ["error: no handler named '" ++ handler ++ "' in " ++ path]
  else
    match Host.answer? (Host.call handler (args.map argValue).toArray) m with
    | none => .brokenOff
    | some (outcome, m) =>
      let response : Response :=
        match outcome with
        | .error fault => .failure 3 ["runtime error: " ++ fault.message]
        | .ok value =>
          if m.stopped then
            .failure 3 ["runtime error: " ++ handler ++ " stopped after a script error"]
          else (m.memory.display? value).elim .brokenOff fun shown => .lines [shown]
      { response with log := m.log.reverse }

/-- Assembles the text of a file, if it could be read, and goes on with the
library. -/
def withLibrary (path : String) (contents : Except String String) (use : Library → Response) :
    Response :=
  match contents with
  | .error cause => .failure 1 ["error: cannot read '" ++ path ++ "': " ++ cause]
  | .ok text =>
    match Lingo.assemble text with
    | .error e => .failure 1 ["error: " ++ path ++ ": " ++ e.message]
    | .ok lib => use lib

end Command

open Command in
/-- Answers a request. `contents` is the text of the file that the request names,
or why it could not be read, and `stepLimit?` the value of the environment
variable. -/
def Request.respond (request : Request) (contents : Except String String)
    (stepLimit? : Option String) : Response :=
  match request with
  | .nothing => .failure 1 usage
  | .help => { errors := usage }
  | .unknown command => .failure 1 (["error: unknown command '" ++ command ++ "'", ""] ++ usage)
  | .incomplete command operands missing =>
    .failure 1
      ["error: " ++ command ++ " requires " ++ missing, "Usage: " ++ pattern command operands]
  | .assemble path => withLibrary path contents fun lib => .lines (summary path lib)
  | .list path => withLibrary path contents fun lib => { output := listing lib }
  | .run path handler args traced =>
    withLibrary path contents fun lib =>
      runHandler path handler args (machineFor lib stepLimit? traced)

end Lingo
