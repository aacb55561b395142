import Lingo.Step.Variable

/-!
# Properties

Properties of the receiver go along its ancestor chain. What properties another
value has depends on its kind. `the …` reads movie properties and a few
constants.
-/

namespace Lingo.Step

open Machine Number

/-! ## Constants and movie properties -/

/-- The double nearest to π. -/
def pi : Double := ⟨0x400921FB54442D18⟩

/-- The constant with a name in any case. -/
def constant? (name : String) : Option Value :=
  match Text.asciiLower name with
  | "pi" => some (.float pi)
  | "true" => some (.int 1)
  | "false" => some (.int 0)
  | "void" => some .void
  | "empty" | "emptystring" => some (.text "")
  | "return" => some (.text "\r")
  | "enter" => some (.text "\n")
  | "tab" => some (.text "\t")
  | "quote" => some (.text "\"")
  | "backspace" => some (.text "\x08")
  | "space" => some (.text " ")
  | _ => none

/-- The movie property with a name: a constant, the item delimiter, or one that
was set. -/
def movieProperty (m : Machine) (name : String) : Value :=
  match constant? name with
  | some value => value
  | none =>
    if Text.sameName name itemDelimiterName then .text (String.singleton m.config.itemDelimiter)
    else m.movieProp name

/-- Names of the movie properties that have numbers. -/
def numberedProps : List String :=
  ["floatPrecision", "mouseDownScript", "mouseUpScript", "keyDownScript", "keyUpScript",
   "timeoutScript", "short time", "abbr time", "long time", "short date", "abbr date",
   "long date"]

/-- The movie property with a number. -/
def numberedProp? (id : Int32) : Option String :=
  if id.toInt < 0 then none else numberedProps[id.toInt.toNat]?

/-- The last number of a movie property; greater ones mean chunks. -/
def lastPropNumber : Int32 := 11

/-! ## Properties of values -/

/-- A property of a member when no cast libraries are attached. -/
def bareMemberProp (castLib member : Int32) (name : String) : Value :=
  match Text.asciiLower name with
  | "number" => .int ((castLib <<< 16) ||| (member &&& 0xFFFF))
  | "membernum" => .int member
  | "castlibnum" => .int castLib
  | "castlib" => .castLib castLib
  | _ => .void

def pointProp (p : Point) (name : String) : Value :=
  match Text.asciiLower name with
  | "loch" | "x" => .int p.x
  | "locv" | "y" => .int p.y
  | _ => .void

def rectProp (r : Rect) (name : String) : Value :=
  match Text.asciiLower name with
  | "left" => .int r.left
  | "top" => .int r.top
  | "right" => .int r.right
  | "bottom" => .int r.bottom
  | "width" => .int (r.right - r.left)
  | "height" => .int (r.bottom - r.top)
  | _ => .void

def colorProp (c : Color) (name : String) : Value :=
  match Text.asciiLower name with
  | "red" => .int (Int32.ofNat c.red.toNat)
  | "green" => .int (Int32.ofNat c.green.toNat)
  | "blue" => .int (Int32.ofNat c.blue.toNat)
  | _ => .void

/-- A property of a list: its length, its kind, or an element by its position. -/
def listProp (items : Array Value) (name : String) : Value :=
  match Text.asciiLower name with
  | "count" | "length" => .int (Int32.ofNat items.size)
  | "ilk" => .symbol "list"
  | _ =>
    match readBounded 64 name.toList with
    | some (i + 1) => items[i]?.getD .void
    | _ => .void

/-- A property of a property list. In a chain of accesses, keys are found in any
case and nothing else is. -/
def propListProp (entries : Bindings Value) (name : String) (chained : Bool) : Value :=
  if chained then (entries.getFolded? name).getD .void
  else
    match Text.asciiLower name with
    | "count" | "length" => .int (Int32.ofNat entries.size)
    | "ilk" => .symbol "propList"
    | _ => (entries.get? name).getD .void

def textProp (s name : String) : Value :=
  match Text.asciiLower name with
  | "length" => .int (Int32.ofNat s.length)
  | "ilk" => .symbol "string"
  | _ => .void

/-- A property of a value. -/
def property (m : Machine) (v : Value) (name : String) (chained : Bool) : Value :=
  match v with
  | .castLib n => (m.casts.map (·.libraryProp n name)).getD .void
  | .member castLib member =>
    match m.casts with
    | some casts => casts.memberProp castLib member name
    | none => bareMemberProp castLib member name
  | .object id => m.memory.heap.property id name
  | .propList cell => propListProp (m.memory.props cell) name chained
  | .list cell => listProp (m.memory.list cell) name
  | .text s => textProp s name
  | .movie => movieProperty m name
  | .player => (constant? name).getD .void
  | .point cell => pointProp (m.memory.point cell) name
  | .rect cell => rectProp (m.memory.rect cell) name
  | .color c => colorProp c name
  | _ => .void

def setPointProp (name : String) (n : Int32) (p : Point) : Point :=
  match Text.asciiLower name with
  | "loch" | "x" => { p with x := n }
  | "locv" | "y" => { p with y := n }
  | _ => p

def setRectProp (name : String) (n : Int32) (r : Rect) : Rect :=
  match Text.asciiLower name with
  | "left" => { r with left := n }
  | "top" => { r with top := n }
  | "right" => { r with right := n }
  | "bottom" => { r with bottom := n }
  | _ => r

/-- Sets a property of a value. -/
def setProperty (v : Value) (name : String) (value : Value) : Update Unit :=
  match v with
  | .castLib _ => pure ()
  | .member castLib member => do
    let _ ← setMemberProp castLib member name value
  | .object id => do
    noteSet .property name value
    Machine.setProp id name value
  | .propList cell => onMemory (modify (·.modifyProps cell (·.insert name value)))
  | .movie => setMovieProp name value
  | .point cell => onMemory (modify (·.modifyPoint cell (setPointProp name value.toInt32)))
  | .rect cell => onMemory (modify (·.modifyRect cell (setRectProp name value.toInt32)))
  | v => report .debug .vm ("cannot set #" ++ name ++ " on " ++ v.typeName)

/-! ## Instructions -/

/-- Pushes a property of the receiver. -/
def getProp (id : Int32) : Update Unit := do
  let m ← get
  match m.receiver with
  | .object object => push (m.memory.heap.property object (m.name id))
  | _ => push .void

/-- Sets a property of the receiver. -/
def setProp (id : Int32) : Update Unit := do
  let value ← pop
  let m ← get
  match m.receiver with
  | .object object =>
    noteSet .property (m.name id) value
    Machine.setProp object (m.name id) value
  | _ => pure ()

def getMovieProp (id : Int32) : Update Unit := do
  let m ← get
  push (movieProperty m (m.name id))

def setMovieProp (id : Int32) : Update Unit := do
  let value ← pop
  Machine.setMovieProp ((← get).name id) value

def getObjProp (id : Int32) : Update Unit := do
  let v ← pop
  let m ← get
  push (property m v (m.name id) false)

def setObjProp (id : Int32) : Update Unit := do
  let value ← pop
  let v ← pop
  setProperty v ((← get).name id) value

/-- Pushes a property in a chain of accesses. Objects have no properties with
integer names. -/
def getChainedProp (id : Int32) : Update Unit := do
  let v ← pop
  let m ← get
  let name := m.name id
  match v with
  | .object _ =>
    if (readInt32 name.toList).isSome then push .void else push (property m v name true)
  | v => push (property m v name true)

def getTopLevelProp (id : Int32) : Update Unit := do
  match (← get).name id with
  | "_player" => push .player
  | "_movie" => push .movie
  | name =>
    report .warn .vm ("unknown top level property " ++ name)
    push .void

/-- `the name` of the running handler, of the movie, or a constant. -/
def theValue (m : Machine) (name : String) : Value :=
  match Text.asciiLower name with
  | "paramcount" => (m.top?.map fun top => .int (Int32.ofNat top.args.size)).getD .void
  | "result" => (m.top?.map (·.result)).getD .void
  | _ =>
    match m.movieProp name with
    | .void => (constant? name).getD .void
    | value => value

/-- Pushes `the name` in place of an argument list. -/
def theBuiltin (id : Int32) : Update Unit := do
  let _ ← pop
  let m ← get
  push (theValue m (m.name id))

def getField : Update Unit := do
  let cast ← pop
  let field ← pop
  push (.text (fieldText (← get) cast field))

/-- Pushes what a family of properties has under a number: a movie property, the
last chunk of a text, the number of its chunks, or the size of a library. -/
def getById (family : Int32) : Update Unit := do
  let id := (← pop).toInt32
  let delimiter := (← get).config.itemDelimiter
  if family == 0 && id.toInt ≤ lastPropNumber.toInt then
    push (((numberedProp? id).map (← get).movieProp).getD .void)
  else if family == 0 then
    let v ← pop
    let text := ((← get).memory.text v).toList
    match ChunkKind.ofCode? (id - lastPropNumber) with
    | some kind => push (.text (String.ofList (lastChunk text kind delimiter)))
    | none => push .void
  else if family == 1 then
    let v ← pop
    let text := ((← get).memory.text v).toList
    match ChunkKind.ofCode? id with
    | some kind => push (.int (Int32.ofNat (scriptChunkCount text kind delimiter)))
    | none => push .void
  else if family == 6 || family == 11 then
    let _ ← pop
    push .void
  else if family == 8 && id == 2 then
    let castLib := (← pop).toInt32
    let count := ((← get).casts.map (·.memberCount castLib)).getD 0
    push (.int (Int32.ofNat count))
  else
    report .debug .vm
      ("GET: unsupported property type " ++ toString family.toInt ++ " id " ++ toString id.toInt)
    push .void

/-- Sets what a family of properties has under a number. -/
def setById (family : Int32) : Update Unit := do
  let id := (← pop).toInt32
  let value ← pop
  if family == 0 && id.toInt ≤ lastPropNumber.toInt then
    match numberedProp? id with
    | some name => Machine.setMovieProp name value
    | none => pure ()
  else if family == 4 || family == 6 then
    let _ ← pop
    pure ()
  else
    report .debug .vm
      ("SET: unsupported property type " ++ toString family.toInt ++ " id " ++ toString id.toInt)

/-- Whether two sprites overlap: without a stage they never do. -/
def spritesOverlap (op : Opcode) : Update Unit := do
  let second ← pop
  let first ← pop
  reportShown .debug .vm fun memory => do
    return op.mnemonic ++ ": no stage, sprites " ++ (← memory.display? first) ++ " and " ++
      (← memory.display? second) ++ " do not overlap"
  push (.int 0)

end Lingo.Step
