import Lingo.Run.Trace
import Lingo.Step.Execute

/-!
# Running handlers

`Machine.activate` runs a handler in a frame of its own, and `runFrame` executes
the instructions of that frame one after another. Both end for every code:

* an activation executes at most `Config.stepLimit` instructions, which is the
  number that `runFrame` counts down;
* at most `Config.maxCallDepth` handlers are active at once, and the number that
  `activate` counts down is what is left of them.

A frame is removed again however its activation ends.
-/

namespace Lingo.Machine

/-- Names of the handlers that handle errors. They never run within each
other. -/
def errorHandlerNames : List String :=
  ["alertHook", "errorHandler"]

def isErrorHandler (name : String) : Bool :=
  errorHandlerNames.any (Text.sameName name)

/-- The frame that goes on and its next instruction: none when the machine is
stopped, the handler has returned, or its code is at its end. -/
def next? (m : Machine) : Option (Frame × Instruction) :=
  if m.stopped then none
  else
    match m.frames with
    | [] => none
    | top :: _ => if top.returned then none else top.current?.map (top, ·)

/-- Takes the result out of the running handler's frame. -/
def takeResult : Update Value :=
  modifyGet fun m =>
    match m.frames with
    | [] => (.void, m)
    | top :: rest =>
      let (v, top) := top.takeResult
      (v, { m with frames := top :: rest })

/-- Starts the next instruction `i` of the running handler's frame. -/
def fetch (frame : Frame) (i : Instruction) : Update Unit := do
  modify (·.onTop Frame.advance)
  noteInstruction frame.cursor i frame.stack

/-- Executes the next instruction `i` of the running handler's frame. -/
def stepFrame (c : Calls) (frame : Frame) (i : Instruction) : Action Unit := do
  fetch frame i
  Step.execute c i

/-- Executes the running handler `name` to its end and takes its result. The
last argument is what is left of the `limit` of instructions. -/
def runFrame (c : Calls) (name : String) (limit : Nat) : Nat → Action Value
  | 0 => do
    match (← get).next? with
    | none => takeResult
    | some (_, i) => throw (.stepLimitExceeded name i.offset limit)
  | remaining + 1 => do
    match (← get).next? with
    | none => takeResult
    | some (frame, i) =>
      stepFrame c frame i
      runFrame c name limit remaining

/-- Starts the frame of a handler. -/
def pushFrame (frame : Frame) : Update Unit :=
  modify fun m => { m with frames := frame :: m.frames }

/-- Removes the frame of the running handler. -/
def popFrame : Update Unit :=
  modify fun m => { m with frames := m.frames.tail }

/-- Starts a handler in its frame: the call as a tracer sees it. -/
def enterHandler (frame : Frame) : Update CallInfo := do
  pushFrame frame
  let m ← get
  let call := m.callInfo frame
  report .trace .call ("enter " ++ call.name) [depthField m.depth]
  noteEnter call
  return call

/-- Tells the tracer how a handler ends. -/
def noteEnd (call : CallInfo) : Except Fault Value → Update Unit
  | .ok result => noteExit call result
  | .error fault => noteFailure call.name fault

/-- Ends the handler of a call, however its frame ended. -/
def leaveHandler (call : CallInfo) (outcome : Except Fault Value) : Update Unit := do
  noteEnd call outcome
  report .trace .call ("exit " ++ call.name) [depthField (← get).depth]
  popFrame

/-- Runs a handler in a frame of its own. -/
def runHandler (c : Calls) (site : HandlerSite) (args : Array Value) (receiver : Value) :
    Action Value := do
  let call ← enterHandler (Frame.enter site args receiver)
  let limit := (← get).config.stepLimit
  let outcome ← sure (runFrame c site.name limit limit).run
  leaveHandler call outcome
  liftExcept outcome

/-- Runs a handler that handles errors, unless one is active already. -/
def runErrorHandler (c : Calls) (site : HandlerSite) (args : Array Value) (receiver : Value) :
    Action Value := do
  if 0 < (← get).errorHandlers then
    report .debug .call ("skipping nested " ++ site.name)
    return .void
  else
    modify fun m => { m with errorHandlers := m.errorHandlers + 1 }
    let outcome ← sure (runHandler c site args receiver).run
    modify fun m => { m with errorHandlers := m.errorHandlers - 1 }
    liftExcept outcome

/-! ## Ways back into the interpreter -/

/-- Calls a handler or builtin function by name on behalf of the host, which may
forward the call `hops` times. -/
def reenterWith (activate : HandlerSite → Array Value → Value → Action Value) :
    Nat → String → Array Value → Action Value
  | 0, name, _ => do throw (.callStackOverflow name (← get).config.maxCallDepth)
  | hops + 1, name, args => callHandler ⟨activate, reenterWith activate hops⟩ name args

/-- How often the host can forward a call before it comes back to a name that it
has forwarded before. Constructors, which the host may replace, count apart. -/
def maxHops (m : Machine) : Nat :=
  2 * m.hosts.length + 1

/-- The ways back into the interpreter from a handler that is activated by
`activate`. -/
def callsWith (activate : HandlerSite → Array Value → Value → Action Value) (hops : Nat) : Calls :=
  ⟨activate, reenterWith activate hops⟩

/-- Runs a handler with arguments, the receiver among them, and a receiver.
Within it, handlers may be activated `remaining - 1` levels deep. A stopped
machine yields void. -/
def activate (remaining : Nat) (site : HandlerSite) (args : Array Value) (receiver : Value) :
    Action Value := do
  let m ← get
  if m.stopped then return .void
  else if m.config.maxCallDepth ≤ m.depth then
    throw (.callStackOverflow site.name m.config.maxCallDepth)
  else
    match remaining with
    | 0 => throw (.callStackOverflow site.name m.config.maxCallDepth)
    | remaining + 1 =>
      let c := callsWith (activate remaining) m.maxHops
      if isErrorHandler site.name then runErrorHandler c site args receiver
      else runHandler c site args receiver

/-- The ways into a machine for the host. -/
def calls (m : Machine) : Calls :=
  callsWith (activate (m.config.maxCallDepth - m.depth)) m.maxHops

end Lingo.Machine
