import Lingo.Bindings
import Lingo.Value

/-!
# The heap of script objects

Script objects are created in a heap and addressed by handles, so that objects
may refer to each other freely, also in circles. Clearing the heap starts a new
generation, in which older handles address nothing.

An object's property `ancestor` links it to another object. `Heap.chain` walks
those links, at most `maxChain` objects, and everything that is looked up "along
the chain" is looked up in the objects of that list.
-/

namespace Lingo

/-- A script object. -/
structure Object where
  /-- The script that it was created from. -/
  script : Option ScriptRef := none
  properties : Bindings Value := {}
  deriving DecidableEq, Repr, Inhabited

/-- Name of the property that links an object to its ancestor. -/
def ancestorName : String := "ancestor"

/-- The direct ancestor of an object. -/
def Object.ancestor? (o : Object) : Option ObjectId :=
  match o.properties.get? ancestorName with
  | some (.object id) => some id
  | _ => none

/-- All objects of a session. -/
structure Heap where
  objects : Array Object := #[]
  generation : UInt32 := 0
  deriving DecidableEq, Repr, Inhabited

namespace Heap

/-- The object with a handle of the current generation. -/
def get? (heap : Heap) (id : ObjectId) : Option Object :=
  if id.generation == heap.generation then heap.objects[id.index]? else none

/-- Adds an object. -/
def alloc (heap : Heap) (object : Object) : ObjectId × Heap :=
  (⟨heap.generation, heap.objects.size⟩, { heap with objects := heap.objects.push object })

/-- Changes an object, if the handle addresses one. -/
def modify (heap : Heap) (id : ObjectId) (f : Object → Object) : Heap :=
  if id.generation == heap.generation then
    { heap with objects := heap.objects.modify id.index f }
  else heap

/-- Adds an object with the script and the property values of another. -/
def clone? (heap : Heap) (id : ObjectId) : Option (ObjectId × Heap) :=
  (heap.get? id).map heap.alloc

/-- Drops all objects and starts a new generation. -/
def clear (heap : Heap) : Heap :=
  { objects := #[], generation := heap.generation + 1 }

/-- The direct ancestor of an object. -/
def ancestor? (heap : Heap) (id : ObjectId) : Option ObjectId :=
  (heap.get? id).bind Object.ancestor?

/-- A property of the object itself. -/
def own? (heap : Heap) (id : ObjectId) (name : String) : Option Value :=
  (heap.get? id).bind fun o => o.properties.get? name

/-- Sets a property of the object itself. -/
def setOwn (heap : Heap) (id : ObjectId) (name : String) (value : Value) : Heap :=
  heap.modify id fun o => { o with properties := o.properties.insert name value }

/-! ## Along the chain -/

/-- Most objects that one walk along ancestor links visits. -/
def maxChain : Nat := 100

/-- Up to `limit` objects from `start` on, following ancestor links. -/
def chainFrom (heap : Heap) : Nat → ObjectId → List ObjectId
  | 0, _ => []
  | limit + 1, id =>
    match heap.get? id with
    | none => []
    | some object =>
      id :: (match object.ancestor? with
        | some next => heap.chainFrom limit next
        | none => [])

/-- An object and its ancestors, nearest first. -/
def chain (heap : Heap) (start : ObjectId) : List ObjectId :=
  heap.chainFrom maxChain start

/-- The nearest object on the chain that has a property. -/
def owner? (heap : Heap) (start : ObjectId) (name : String) : Option ObjectId :=
  (heap.chain start).find? fun id => (heap.own? id name).isSome

/-- A property of the nearest object on the chain that has it. -/
def property? (heap : Heap) (start : ObjectId) (name : String) : Option Value :=
  (heap.owner? start name).bind fun id => heap.own? id name

/-- A property along the chain; void when no object has it. -/
def property (heap : Heap) (start : ObjectId) (name : String) : Value :=
  (heap.property? start name).getD .void

/-- Sets a property on the nearest object that has it, or on `start`. -/
def setProperty (heap : Heap) (start : ObjectId) (name : String) (value : Value) : Heap :=
  heap.setOwn ((heap.owner? start name).getD start) name value

/-- A property along the chain by its exact name, else by its name up to ASCII
case, else void. -/
def propertyFolded (heap : Heap) (start : ObjectId) (name : String) : Value :=
  match heap.property? start name with
  | some value => value
  | none =>
    ((heap.chain start).findSome? fun id =>
      (heap.get? id).bind fun o => o.properties.getFolded? name).getD .void

/-- Follows `n` ancestor links. -/
def ascend (heap : Heap) : Nat → ObjectId → Option ObjectId
  | 0, id => some id
  | n + 1, id => (heap.ancestor? id).bind (heap.ascend n)

/-- The ancestor `depth` links up; depths below 1 have none, and no more than
`maxChain` links are followed. -/
def ancestorAt? (heap : Heap) (start : ObjectId) (depth : Int32) : Option ObjectId :=
  if depth.toInt < 1 then none else heap.ascend (min depth.toInt.toNat maxChain) start

/-- Ancestor links that can be followed from an object, up to a limit. -/
def linksFrom (heap : Heap) : Nat → ObjectId → Nat
  | 0, _ => 0
  | limit + 1, id =>
    match heap.ancestor? id with
    | some next => heap.linksFrom limit next + 1
    | none => 0

/-- Ancestor links that can be followed from an object, up to `maxChain`. -/
def chainDepth (heap : Heap) (start : ObjectId) : Nat :=
  heap.linksFrom maxChain start

end Heap

end Lingo
