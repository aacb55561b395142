import Lingo.Builtin.Function
import Lingo.Method.Object
import Lingo.Method.Text

/-!
# Builtin functions

The functions that every machine has. They are found by their names in lower
case, before any handler. Besides the functions of values there are those that
control the running handler, call handlers, look things up in the movie, print,
and call the methods of containers.

`Machine.callHandler` calls by name, `Machine.callMethod` on a value.
-/

namespace Lingo

inductive Builtin where
  /-- A function of its arguments alone. -/
  | compute (f : Function)
  /-- A method of its first argument, by the name under which it is known. -/
  | collection (method : String)
  | ret | abort | halt | param | pass
  | call | callAncestor
  | new | script | member | castLib
  | put | alert
  deriving DecidableEq, Repr

namespace Builtin

/-- The methods that are also functions. -/
def collectionNames : List String :=
  ["count", "getAt", "setAt", "addAt", "deleteAt", "append", "add", "getaProp", "setaProp",
   "addProp", "deleteProp", "getPropAt", "findPos", "getOne", "getPos", "deleteOne", "sort",
   "getLast"]

/-- All builtin functions. -/
def table : MethodTable Builtin :=
  [("return", ret), ("abort", abort), ("halt", halt), ("nothing", compute .nothing),
   ("param", param), ("pass", pass), ("call", call), ("callancestor", callAncestor),
   ("new", new), ("point", compute .point), ("rect", compute .rect), ("color", compute .color),
   ("list", compute .list), ("symbol", compute .symbol), ("script", script), ("member", member),
   ("castlib", castLib), ("abs", compute .abs), ("sqrt", compute .sqrt), ("sin", compute .sin),
   ("cos", compute .cos), ("integer", compute .integer), ("float", compute .float),
   ("string", compute .string), ("length", compute .length), ("chars", compute .chars),
   ("chartonum", compute .charToNum), ("numtochar", compute .numToChar),
   ("offset", compute .offset), ("voidp", compute .voidP), ("objectp", compute .objectP),
   ("listp", compute .listP), ("stringp", compute .stringP), ("integerp", compute .integerP),
   ("floatp", compute .floatP), ("symbolp", compute .symbolP), ("ilk", compute .ilk),
   ("put", put), ("alert", alert)] ++
    collectionNames.map fun name => (Text.asciiLower name, collection name)

end Builtin

namespace Machine

/-! ## Methods of values -/

def callList (cell : Nat) (name : String) (args : Array Value) : Update Value := do
  match ListMethod.table.find? name with
  | some method => onMemory (method.run (← get).config.addAtPolicy cell args)
  | none => return .void

def callPropList (cell : Nat) (name : String) (args : Array Value) : Update Value :=
  match PropListMethod.table.find? name with
  | some method => onMemory (method.run cell args)
  | none => return .void

def callText (s : String) (name : String) (args : Array Value) : Update Value := do
  match TextMethod.table.find? name with
  | some method => return method.run (← get).config.itemDelimiter s args
  | none => return .void

/-- The coordinate of a point at a position. -/
def pointElement (p : Point) (args : Array Value) : Value :=
  match (args[0]?.map Value.toInt32) with
  | some 1 => .int p.x
  | some 2 => .int p.y
  | _ => .void

/-- The edge of a rect at a position. -/
def rectElement (r : Rect) (args : Array Value) : Value :=
  match (args[0]?.map Value.toInt32) with
  | some 1 => .int r.left
  | some 2 => .int r.top
  | some 3 => .int r.right
  | some 4 => .int r.bottom
  | _ => .void

/-- Calls a method of a container by way of the function of that name. -/
def callCollection (c : Calls) (name : String) (args : Array Value) : Update Value := do
  match args[0]? with
  | none => return .void
  | some target =>
    let rest := args.extract 1 args.size
    let other : Update Value := do
      report .trace .vm (name ++ ": not a container: " ++ target.typeName)
      return .void
    match target with
    | .list cell => callList cell name rest
    | .propList cell => callPropList cell name rest
    | .text s => callText s name rest
    | .object id => callObject c id name rest
    | .point cell =>
      if Text.sameName name "getAt" then return pointElement ((← get).memory.point cell) rest
      else if Text.sameName name "count" then return .int 2
      else other
    | .rect cell =>
      if Text.sameName name "getAt" then return rectElement ((← get).memory.rect cell) rest
      else if Text.sameName name "count" then return .int 4
      else other
    | _ => other

/-! ## Calls on objects -/

/-- The objects that a value addresses: itself, or those in a container. -/
def objectsOf (m : Memory) (target : Value) : List ObjectId :=
  let pick : Value → Option ObjectId
    | .object id => some id
    | _ => none
  match target with
  | .object id => [id]
  | .list cell => (m.list cell).toList.filterMap pick
  | .propList cell => (m.props cell).values.filterMap pick
  | _ => []

/-- Calls a handler on each object that has it, until the machine stops; the
result of the last call. -/
def callEach (c : Calls) (name : String) (args : Array Value) :
    List ObjectId → Value → Update Value
  | [], result => return result
  | id :: rest, result => do
    let m ← get
    if m.stopped then return result
    else
      match m.findObjectHandler? id name with
      | some site => callEach c name args rest (← executeContained c site args (.object id))
      | none => callEach c name args rest result

/-- `call(#handler, target, …)`. -/
def callOn (c : Calls) (args : Array Value) : Update Value := do
  let m ← get
  let name := m.memory.text (argAt args 0)
  let rest := args.extract 2 args.size
  match argAt args 1 with
  | .script ref =>
    match m.findHandlerIn? ref name with
    | some site => executeContained c site rest (.script ref)
    | none => return .void
  | target => callEach c name rest (objectsOf m.memory target) .void

/-- The object on the chain of `me` whose script is running; `me` itself when
there is none. -/
def runningLevel (m : Machine) (me : ObjectId) : ObjectId :=
  let running? := m.top?.map (·.site.scriptRef)
  ((m.memory.heap.chain me).find? fun id =>
    running?.isSome && (m.memory.heap.get? id).bind (·.script) == running?).getD me

/-- Calls a handler of an ancestor for each object. -/
def callAncestors (c : Calls) (name : String) (args : Array Value) :
    List ObjectId → Value → Action Value
  | [], result => return result
  | me :: rest, result => do
    let m ← get
    match m.memory.heap.ancestor? (m.runningLevel me) with
    | none =>
      report .debug .call ("callAncestor #" ++ name ++ ": no ancestor")
      callAncestors c name args rest result
    | some start =>
      match m.findObjectHandler? start name with
      | some site => callAncestors c name args rest (← execute c site args (some (.object me)))
      | none => callAncestors c name args rest result

/-- `callAncestor(#handler, me, …)`: the handler is looked up above the object
whose script is running, and runs with `me` as its receiver. -/
def callAncestorOn (c : Calls) (args : Array Value) : Action Value := do
  let m ← get
  callAncestors c (m.memory.text (argAt args 0)) (args.extract 2 args.size)
    (objectsOf m.memory (argAt args 1)) .void

/-! ## The movie -/

/-- `script(…)`: a script by number or name. -/
def scriptValue (m : Machine) : Value → Value
  | .int n =>
    if 0xFFFF < n.toInt then .script (unpackRef n)
    else .script ⟨(m.movie.map (·.number)).getD 1, n⟩
  | .script ref => .script ref
  | .void => .void
  | v => ((m.scriptNamed? (m.memory.text v)).map Value.script).getD .void

/-- `member(…)`: a member by number or name, perhaps of one library. -/
def memberValue (m : Machine) (which library : Value) : Value :=
  let castLib :=
    match library with
    | .castLib n => n
    | v => v.toInt32
  let numbered (n : Int32) : Value :=
    if 0 < castLib.toInt then .member castLib n
    else if 0xFFFF < n.toInt then .member (unpackRef n).castLib (unpackRef n).member
    else .member 1 n
  match which with
  | .int n => numbered n
  | .float x => numbered x.toInt32
  | .member castLib number => .member castLib number
  | .text name | .symbol name =>
    match m.casts with
    | some casts => casts.memberNamed castLib name
    | none => .void
  | _ => .void

/-- `castLib(…)`: a library by number or name. -/
def castLibValue (m : Machine) (which : Value) : Value :=
  match m.casts with
  | none => .void
  | some casts =>
    let number :=
      match which with
      | .int _ | .float _ => casts.numberOf which.toInt32
      | .castLib n => n
      | .text name | .symbol name => casts.numberNamed name
      | _ => 0
    if 0 < number.toInt then .castLib number else .void

/-! ## Builtin functions -/

/-- Texts of values, separated by spaces, if they all have one. -/
def joinedText? (m : Memory) (args : Array Value) : Option String :=
  (args.toList.mapM m.text?).map (" ".intercalate ·)

/-- Stops the machine at the request of a script. -/
def stop (word : String) : Update Value := do
  report .debug .vm (word ++ " in " ++ (← get).handlerName)
  setStopped true
  return .void

/-- Calls a builtin function. -/
def callBuiltin (c : Calls) (args : Array Value) : Builtin → Action Value
  | .compute f => sure (onMemory (f.run args))
  | .collection name => callCollection c name args
  | .ret => do
    modify (·.onTop (·.finish (argAt args 0)))
    return argAt args 0
  | .abort => stop "abort"
  | .halt => stop "halt"
  | .param => do
    let i := (intArgAt args 0 - 1).toInt
    match (← get).top? with
    | some top => return if i < 0 then .void else top.paramAt i.toNat
    | none => return .void
  | .pass => do
    modify fun m => { m with passes := m.passes.map (· + 1) }
    return .void
  | .call => callOn c args
  | .callAncestor => callAncestorOn c args
  | .new => newObject c args
  | .script => return scriptValue (← get) (argAt args 0)
  | .member => return memberValue (← get) (argAt args 0) (argAt args 1)
  | .castLib => return castLibValue (← get) (argAt args 0)
  | .put => do
    reportShown .info .put (joinedText? · args)
    return .void
  | .alert => do
    reportShown .warn .put fun memory => (joinedText? memory args).map ("alert: " ++ ·)
    return .void

/-- Whether there is a function of the host or a builtin function with a name. -/
def hasBuiltin (m : Machine) (name : String) : Bool :=
  (m.hosts.lookup (Text.asciiLower name)).isSome || (Builtin.table.find? name).isSome

/-- Calls a function of the host or a builtin function; other names yield void. -/
def invoke (c : Calls) (name : String) (args : Array Value) : Action Value := do
  match (← get).hosts.lookup (Text.asciiLower name) with
  | some f => callHost c args f
  | none =>
    match Builtin.table.find? name with
    | some b => callBuiltin c args b
    | none => return .void

/-! ## Calls by name -/

/-- Calls a builtin function or a handler; one that is not found yields void. -/
def callHandler (c : Calls) (name : String) (args : Array Value) : Action Value := do
  let m ← get
  if m.stopped then return .void
  else if m.hasBuiltin name then invoke c name args
  else
    match m.findHandler? name with
    | some site => execute c site args none
    | none =>
      report .trace .call ("no handler named " ++ name)
      return .void

/-- Calls a handler on a receiver: an object's along its ancestor chain, a
script's own, or else any handler with the name. -/
def callHandlerOn (c : Calls) (name : String) (args : Array Value) (receiver : Value) :
    Action Value := do
  let m ← get
  if m.stopped then return .void
  else
    let own? :=
      match receiver with
      | .object id => m.findObjectHandler? id name
      | .script ref => m.findHandlerIn? ref name
      | _ => none
    match own? <|> m.findHandler? name with
    | some site => execute c site args (some receiver)
    | none => return .void

/-- Calls a method of a value. A value without the method is the first argument
of the builtin function with that name, and void comes of names unknown. -/
def callMethod (c : Calls) (target : Value) (name : String) (args : Array Value) :
    Action Value := do
  let fallback : Action Value := do
    if (← get).hasBuiltin name then invoke c name (#[target] ++ args) else return .void
  match target with
  | .list cell => callList cell name args
  | .propList cell => callPropList cell name args
  | .text s => callText s name args
  | .object id => callObject c id name args
  | .script ref =>
    if Text.sameName name "new" then construct c (#[target] ++ args)
    else if ((← get).findHandlerIn? ref name).isSome then callHandlerOn c name args target
    else fallback
  | .point cell =>
    if Text.sameName name "getAt" then return pointElement ((← get).memory.point cell) args
    else fallback
  | .rect cell =>
    if Text.sameName name "getAt" then return rectElement ((← get).memory.rect cell) args
    else fallback
  | _ => fallback

end Machine

end Lingo
