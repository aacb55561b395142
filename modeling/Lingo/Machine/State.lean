import Lingo.Machine.Config
import Lingo.Machine.Fault
import Lingo.Machine.Frame
import Lingo.Machine.Log

/-!
# Machines

A `Machine` is the state of an interpreter: its memory, its variables, the
frames of the active handlers, and the libraries it runs. What changes a
machine and cannot fail is an `Update`; an `Action` may also end with a
`Fault`, and the machine is then as the fault left it.

A machine is *stopped* after a fault was contained or a script asked for it; a
stopped machine executes nothing until the host starts it again.
-/

namespace Lingo

/-- A function that the host adds to those of the language. -/
inductive HostFunction where
  /-- Always yields this value. -/
  | constant (v : Value)
  /-- Yields its arguments as a list. -/
  | collect
  /-- Fails with this message. -/
  | raise (message : String)
  /-- Calls a handler or function by name with its own arguments. -/
  | forward (name : String)
  /-- Yields the number of active handlers and the scale of variable slots. -/
  | measure
  deriving DecidableEq, Repr, Inhabited

/-- The state of an interpreter. -/
structure Machine where
  config : Config := {}
  memory : Memory := {}
  globals : Bindings Value := {}
  movieProps : Bindings Value := {}
  /-- Active handlers, innermost first. -/
  frames : List Frame := []
  /-- The library that is searched first. -/
  movie : Option Library := none
  /-- The other libraries, if the host attached any. -/
  casts : Option CastLibraries := none
  /-- Functions of the host by name in lower case. -/
  hosts : List (String × HostFunction) := []
  stopped : Bool := false
  /-- Active handlers that handle errors. -/
  errorHandlers : Nat := 0
  /-- How often an event was passed on, if the host wants to know. -/
  passes : Option Nat := none
  tracer : Option Tracer := none
  /-- The log, last entry first. -/
  log : List LogEntry := []
  /-- Events of a recording tracer, last one first. -/
  events : List TraceEvent := []

/-- A change of a machine that cannot fail. -/
abbrev Update (α : Type) := StateM Machine α

/-- A change of a machine that may end with a fault. -/
abbrev Action (α : Type) := ExceptT Fault (StateM Machine) α

/-- An update as an action that does not fail. -/
def sure {α : Type} (update : Update α) : Action α :=
  ExceptT.lift update

namespace Machine

/-- The run has broken off, without a result and without a fault: in an operation on
the memory, or in a line of the log that has no end. What the machine is like from
then on means nothing. -/
def brokeOff (m : Machine) : Bool :=
  m.memory.broken || m.log.any (!·.ends)

/-- Lets a computation change the memory. -/
def onMemory {α : Type} (f : Alloc α) : Update α :=
  modifyGet fun m =>
    let memory := m.memory
    let m := { m with memory := {} }
    let (x, memory) := f memory
    (x, { m with memory })

/-- Changes the heap of script objects. -/
def modifyHeap (f : Heap → Heap) : Update Unit :=
  onMemory (modify (·.modifyHeap f))

/-- The log entry with a message, if the message has an end. -/
def logEntry (level : LogLevel) (target : LogTarget) (message : Option String)
    (fields : List (String × String)) : LogEntry where
  level := level
  target := target
  message := message.getD ""
  fields := fields
  ends := message.isSome

/-- Adds an entry to the log, with a message in which values are displayed as they are
at that moment. -/
def reportShown (level : LogLevel) (target : LogTarget) (message : Memory → Option String)
    (fields : List (String × String) := []) : Update Unit :=
  modify fun m => { m with log := logEntry level target (message m.memory) fields :: m.log }

/-- Adds an entry to the log. -/
def report (level : LogLevel) (target : LogTarget) (message : String)
    (fields : List (String × String) := []) : Update Unit :=
  reportShown level target (fun _ => some message) fields

/-- Tells the tracer something: a recording one keeps the event, a logging one
writes the line to the log. -/
def notify (event : Memory → TraceEvent) (line : Memory → Option String)
    (fields : List (String × String) := []) : Update Unit := do
  match (← get).tracer with
  | none => pure ()
  | some .record => modify fun m => { m with events := event m.memory :: m.events }
  | some .log => reportShown .debug .trace line fields

/-! ## The running handler -/

def depth (m : Machine) : Nat :=
  m.frames.length

def top? (m : Machine) : Option Frame :=
  m.frames.head?

/-- Changes the frame of the running handler. -/
def onTop (m : Machine) (f : Frame → Frame) : Machine :=
  match m.frames with
  | [] => m
  | top :: rest => { m with frames := f top :: rest }

def push (v : Value) : Update Unit :=
  modify (·.onTop (·.push v))

def pop : Update Value :=
  modifyGet fun m =>
    match m.frames with
    | [] => (.void, m)
    | top :: rest =>
      let (v, top) := top.pop
      (v, { m with frames := top :: rest })

/-- Takes up to `n` operands, in the order in which they were pushed. -/
def popMany (n : Nat) : Update (Array Value) :=
  modifyGet fun m =>
    match m.frames with
    | [] => (#[], m)
    | top :: rest =>
      let (vs, top) := top.popMany n
      (vs, { m with frames := top :: rest })

/-- The receiver of the running handler. -/
def receiver (m : Machine) : Value :=
  match m.frames with
  | [] => .void
  | top :: _ => top.receiver

/-- Name of the running handler. -/
def handlerName (m : Machine) : String :=
  match m.frames with
  | [] => ""
  | top :: _ => top.site.name

/-- The name with a number in the running handler's library. -/
def name (m : Machine) (id : Int32) : String :=
  match m.frames with
  | [] => Names.name {} id
  | top :: _ => top.library.names.name id

/-- Scale of variable slots in the running handler's library. -/
def slotScale (m : Machine) : Int32 :=
  match m.frames with
  | [] => 1
  | top :: _ => top.library.slotScale

/-! ## Variables of the movie -/

/-- Tells the tracer of an assignment. -/
def noteSet (kind : VariableKind) (name : String) (value : Value) : Update Unit :=
  notify (fun memory => .set kind name (memory.image value))
    (fun memory => (memory.display? value).map (kind.name ++ " " ++ name ++ " = " ++ ·))

def global (m : Machine) (name : String) : Value :=
  (m.globals.get? name).getD .void

def setGlobal (name : String) (value : Value) : Update Unit := do
  noteSet .global name value
  modify fun m => { m with globals := m.globals.insert name value }

/-- A movie property, by its name in any case. -/
def movieProp (m : Machine) (name : String) : Value :=
  (m.movieProps.getFolded? name).getD .void

/-- Name of the movie property that is the item delimiter. -/
def itemDelimiterName : String := "itemDelimiter"

/-- Sets a movie property under the name that it had first. The item delimiter
takes the first character of the value's text, if there is one. -/
def setMovieProp (name : String) (value : Value) : Update Unit :=
  modify fun m =>
    if Text.sameName name itemDelimiterName then
      match (m.memory.text value).toList with
      | [] => m
      | c :: _ => { m with config := { m.config with itemDelimiter := c } }
    else
      let key := ((m.movieProps.findFolded? name).map (·.1)).getD name
      { m with movieProps := m.movieProps.insert key value }

/-! ## Objects -/

/-- A property of an object itself. -/
def ownProp (m : Machine) (id : ObjectId) (name : String) : Value :=
  (m.memory.heap.own? id name).getD .void

/-- Sets a property of an object itself. -/
def setOwnProp (id : ObjectId) (name : String) (value : Value) : Update Unit :=
  modifyHeap (·.setOwn id name value)

/-- Sets a property along the ancestor chain. -/
def setProp (id : ObjectId) (name : String) (value : Value) : Update Unit :=
  modifyHeap (·.setProperty id name value)

/-! ## Cast libraries -/

/-- Sets a property of a member; whether there is such a member. -/
def setMemberProp (castLib member : Int32) (prop : String) (value : Value) : Update Bool :=
  modifyGet fun m =>
    match m.casts.bind (·.setMemberProp? m.memory castLib member prop value) with
    | some casts => (true, { m with casts := some casts })
    | none => (false, m)

/-! ## Host control -/

/-- Stops the machine, or starts it again. -/
def setStopped (stopped : Bool) : Update Unit :=
  modify fun m => { m with stopped }

/-- Forgets variables, objects, frames and the stop; settings and libraries
stay. -/
def reset : Update Unit :=
  modify fun m =>
    { m with
      globals := {}
      movieProps := {}
      frames := []
      memory := m.memory.modifyHeap Heap.clear
      stopped := false
      errorHandlers := 0 }

/-- Adds a function of the host, in place of any other with the name. -/
def register (name : String) (f : HostFunction) : Update Unit :=
  modify fun m => { m with hosts := (Text.asciiLower name, f) :: m.hosts }

/-! ## Finding handlers and scripts -/

/-- A handler by name, in the movie and then in the cast libraries. -/
def findHandler? (m : Machine) (name : String) : Option HandlerSite :=
  match m.movie.bind (HandlerSite.findInLibrary? · name) with
  | some site => some site
  | none => m.casts.bind (·.findHandler? name)

/-- The script of the movie that a reference means. -/
def movieScript? (m : Machine) (ref : ScriptRef) : Option (Library × Script) := do
  let movie ← m.movie
  if movie.number == ref.castLib then
    let script ← movie.scriptAt? ref.member
    return (movie, script)
  else none

/-- A handler of one script. -/
def findHandlerIn? (m : Machine) (ref : ScriptRef) (name : String) : Option HandlerSite :=
  match (m.movieScript? ref).bind fun (movie, script) => HandlerSite.find? movie script name with
  | some site => some site
  | none => m.casts.bind (·.findHandlerIn? ref name)

/-- The first handler with a name along an object's ancestor chain. -/
def findObjectHandler? (m : Machine) (start : ObjectId) (name : String) : Option HandlerSite :=
  (m.memory.heap.chain start).findSome? fun id => do
    let object ← m.memory.heap.get? id
    let script ← object.script
    m.findHandlerIn? script name

/-- The script that a packed number means: the library in the high half and the
member in the low half. -/
def unpackRef (n : Int32) : ScriptRef :=
  ⟨n >>> 16, n &&& 0xFFFF⟩

/-- The script with a name, in the movie and then in the cast libraries. There a
property of the member may lead to another script. -/
def scriptNamed? (m : Machine) (name : String) : Option ScriptRef :=
  let inMovie := m.movie.bind fun movie =>
    (movie.scriptNamed? name).map fun s => (⟨movie.number, s.member⟩ : ScriptRef)
  match inMovie with
  | some ref => some ref
  | none => do
    let casts ← m.casts
    match casts.memberNamed 0 name with
    | .member castLib member =>
      match casts.memberProp castLib member "script" with
      | .script ref => some ref
      | .int n =>
        if 0xFFFF < n.toInt then some (unpackRef n)
        else if 0 < n.toInt then some ⟨castLib, n⟩
        else some ⟨castLib, member⟩
      | _ => some ⟨castLib, member⟩
    | _ => none

/-- Names of the properties that a script declares. -/
def scriptProperties (m : Machine) (ref : ScriptRef) : List String :=
  match m.movieScript? ref with
  | some (movie, script) => movie.propertyNames script
  | none =>
    match m.casts with
    | some casts => casts.scriptProperties ref
    | none => []

end Machine

end Lingo
