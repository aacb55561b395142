import Lingo.Chunk.Kind
import Lingo.Number.Arithmetic
import Lingo.Number.Numeral
import Lingo.Text.Blank

/-!
# Values

The values that scripts compute with. Numbers, texts and references to parts of
a movie are plain data. Lists, property lists, argument lists, points and rects
are handles to cells of a `Lingo.Memory`, so that two holders of one cell see
each other's writes, and script objects are handles into a `Lingo.Heap`.

What depends on the value alone is defined here: its kind, its truth, and its
readings as an integer and as a float.
-/

namespace Lingo

open Number

/-- A script member, by cast library and member number. -/
structure ScriptRef where
  castLib : Int32
  member : Int32
  deriving DecidableEq, Repr, Inhabited

/-- A script object: its position in the heap, and the generation of the heap in
which it was created. -/
structure ObjectId where
  generation : UInt32
  index : Nat
  deriving DecidableEq, Repr, Inhabited

structure Point where
  x : Int32
  y : Int32
  deriving DecidableEq, Repr, Inhabited

/-- A rectangle, by its edges. -/
structure Rect where
  left : Int32
  top : Int32
  right : Int32
  bottom : Int32
  deriving DecidableEq, Repr, Inhabited

structure Color where
  red : UInt8
  green : UInt8
  blue : UInt8
  deriving DecidableEq, Repr, Inhabited

/-- The color with each channel clamped to a byte. -/
def Color.clamped (red green blue : Int32) : Color :=
  let channel (n : Int32) : UInt8 := (min n.toInt 255).toNat.toUInt8
  ⟨channel red, channel green, channel blue⟩

/-- A stretch of the text in a variable. -/
structure ChunkRef where
  /-- Code of the kind of variable. -/
  variableKind : Int32
  /-- Scaled slot or name number of the variable. -/
  index : Int32
  kind : ChunkKind
  start : Int32
  stop : Int32
  deriving DecidableEq, Repr, Inhabited

/-- A value of the language. -/
inductive Value where
  | void
  | int (n : Int32)
  | float (x : Double)
  | text (s : String)
  | symbol (s : String)
  | sprite (channel : Int32)
  | member (castLib number : Int32)
  | castLib (number : Int32)
  | script (ref : ScriptRef)
  | window (name : String)
  | stage
  | movie
  | player
  | xtra (name : String)
  | timeout (name : String)
  | varRef (variableKind index : Int32)
  | chunkRef (ref : ChunkRef)
  | color (c : Color)
  /-- A point cell. -/
  | point (cell : Nat)
  /-- A rect cell. -/
  | rect (cell : Nat)
  /-- A list cell. -/
  | list (cell : Nat)
  /-- A property list cell. -/
  | propList (cell : Nat)
  /-- Arguments of a call whose result is used, in a list cell. -/
  | argList (cell : Nat)
  /-- Arguments of a call whose result is dropped, in a list cell. -/
  | argListNoRet (cell : Nat)
  | object (id : ObjectId)
  deriving DecidableEq, Repr, Inhabited

namespace Value

/-- Truth values are the integers 1 and 0. -/
def ofBool (b : Bool) : Value :=
  .int (if b then 1 else 0)

def isVoid (v : Value) : Bool :=
  v == .void

def isNumber : Value → Bool
  | .int _ | .float _ => true
  | _ => false

/-- Texts and symbols, which compare without regard to case. -/
def isTextual : Value → Bool
  | .text _ | .symbol _ => true
  | _ => false

/-- Void, zero and the empty text are false, everything else is true. -/
def truthy : Value → Bool
  | .void => false
  | .int n => n != 0
  | .float x => !x.isZero
  | .text s => !s.isEmpty
  | _ => true

/-- The 32-bit integer that a text spells, blanks around it aside. -/
def readInt32? (s : String) : Option Int32 :=
  readInt32 (Text.trimChars s.toList)

/-- The double that a text spells, blanks around it aside. -/
def readDouble? (s : String) : Option Double :=
  readDouble (Text.trimChars s.toList)

/-- Reading as an integer: floats lose their fraction, texts are parsed, and
what is no number is 0. -/
def toInt32 : Value → Int32
  | .int n => n
  | .float x => x.toInt32
  | .text s => (readInt32? s).getD 0
  | _ => 0

/-- Reading as a float: texts are parsed, and what is no number is 0. -/
def toDouble : Value → Double
  | .int n => .ofInt n.toInt
  | .float x => x
  | .text s => (readDouble? s).getD .zero
  | _ => .zero

/-- Name of the kind of a value in diagnostics. -/
def typeName : Value → String
  | .void => "void"
  | .int _ => "int"
  | .float _ => "float"
  | .text _ => "string"
  | .symbol _ => "symbol"
  | .sprite _ => "sprite"
  | .member _ _ => "member"
  | .castLib _ => "castLib"
  | .script _ => "script"
  | .window _ => "window"
  | .stage => "stage"
  | .movie => "movie"
  | .player => "player"
  | .xtra _ => "xtra"
  | .timeout _ => "timeout"
  | .varRef _ _ => "varRef"
  | .chunkRef _ => "chunkRef"
  | .color _ => "color"
  | .point _ => "point"
  | .rect _ => "rect"
  | .list _ => "list"
  | .propList _ => "propList"
  | .argList _ => "argList"
  | .argListNoRet _ => "argListNoRet"
  | .object _ => "script"

/-- Name of the kind of a value as scripts see it. -/
def ilk : Value → String
  | .void => "void"
  | .int _ => "integer"
  | .float _ => "float"
  | .text _ => "string"
  | .symbol _ => "symbol"
  | .sprite _ => "sprite"
  | .member _ _ => "member"
  | .castLib _ => "castLib"
  | .script _ => "script"
  | .window _ => "window"
  | .stage => "stage"
  | .xtra _ => "xtra"
  | .color _ => "color"
  | .point _ => "point"
  | .rect _ => "rect"
  | .list _ => "list"
  | .propList _ => "propList"
  | .object _ => "instance"
  | .movie | .player | .timeout _ | .varRef _ _ | .chunkRef _ | .argList _ | .argListNoRet _ =>
    "object"

end Value

end Lingo
