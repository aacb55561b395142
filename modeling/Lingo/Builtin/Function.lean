import Lingo.Chunk.Edit
import Lingo.Memory.Compare
import Lingo.Method.Table

/-!
# Functions of values

The builtin functions whose results depend on their arguments alone: number and
text functions, tests of kinds, and those that make points, rects, colors,
lists and symbols. Missing arguments are void.
-/

namespace Lingo

open Number

inductive Function where
  | nothing
  | point | rect | color | list | symbol
  | abs | sqrt | sin | cos | integer | float
  | string | length | chars | charToNum | numToChar | offset
  | voidP | objectP | listP | stringP | integerP | floatP | symbolP | ilk
  deriving DecidableEq, Repr

/-- Position of the first occurrence of a pattern, counted from `pos`. -/
def findPattern (pattern : List Char) : Nat → List Char → Option Nat
  | pos, [] => if pattern.isEmpty then some pos else none
  | pos, c :: rest =>
    if pattern.isPrefixOf (c :: rest) then some pos else findPattern pattern (pos + 1) rest

/-- Position of a text in another, counted from 1; 0 when it does not occur or is
empty. -/
def textOffset (needle haystack : String) : Nat :=
  if needle.isEmpty then 0 else (findPattern needle.toList 1 haystack.toList).getD 0

namespace Value

/-- The nearest 32-bit integer, a half going away from zero; void for what is no
number. -/
def rounded : Value → Value
  | .int n => .int n
  | .float x => .int x.roundAway.toInt32
  | .text s =>
    match readInt32? s, readDouble? s with
    | some n, _ => .int n
    | none, some x => .int x.roundAway.toInt32
    | none, none => .void
  | _ => .void

/-- A number as a float. A text that spells none is kept, and so is void. -/
def floated : Value → Value
  | .text s =>
    match readDouble? s with
    | some x => .float x
    | none => .text s
  | .void => .void
  | v => .float v.toDouble

/-- Whether a value is neither void, a number, a text nor a symbol. -/
def isObject : Value → Bool
  | .void | .int _ | .float _ | .text _ | .symbol _ => false
  | _ => true

def isList : Value → Bool
  | .list _ | .propList _ => true
  | _ => false

end Value

namespace Function

/-- A value as a symbol; void and empty texts have none. -/
def toSymbol (m : Memory) : Value → Value
  | .symbol s => .symbol s
  | .void => .void
  | v => if (m.text v).isEmpty then .void else .symbol (m.text v)

/-- Length of a list, a property list or a text. -/
def lengthOf (m : Memory) : Value → Nat
  | .void => 0
  | .list cell => (m.list cell).size
  | .propList cell => (m.props cell).size
  | v => (m.text v).length

/-- The text with a range of character positions; empty when it is inverted or
starts below 1. -/
def characters (s : String) (first last : Int32) : String :=
  if first.toInt < 1 || last.toInt < first.toInt then ""
  else String.ofList (chunkText s.toList .char first last ',')

/-- The text of one character; empty for a number that is no code point. -/
def ofCodePoint (n : Int32) : String :=
  if h : 0 ≤ n.toInt ∧ n.toInt.toNat.isValidChar then
    String.singleton (Char.ofNatAux n.toInt.toNat h.2)
  else ""

/-- Whether a value is of a kind; property lists are also lists. -/
def isOfIlk (v : Value) (wanted : String) : Bool :=
  Text.sameName v.ilk wanted ||
    (Text.sameName wanted "list" && match v with | .propList _ => true | _ => false)

/-- Calls a function. -/
def run (args : Array Value) (f : Function) : Alloc Value := do
  let m ← get
  let v := argAt args 0
  match f with
  | nothing => return .void
  | point => Alloc.newPoint ⟨intArgAt args 0, intArgAt args 1⟩
  | rect => Alloc.newRect ⟨intArgAt args 0, intArgAt args 1, intArgAt args 2, intArgAt args 3⟩
  | color => return .color (.clamped (intArgAt args 0) (intArgAt args 1) (intArgAt args 2))
  | list => Alloc.newList args
  | symbol => return toSymbol m v
  | abs =>
    match v with
    | .float x => return .float x.abs
    | v => return .int (if v.toInt32.toInt < 0 then -v.toInt32 else v.toInt32)
  | sqrt => return .float v.toDouble.sqrt
  | sin => return .float v.toDouble.sin
  | cos => return .float v.toDouble.cos
  | integer => return v.rounded
  | float => return v.floated
  | string => return .text (m.text v)
  | length => return .ofNat (lengthOf m v)
  | chars =>
    let first := intArgAt args 1
    let last := (args[2]?.map Value.toInt32).getD first
    return .text (characters (m.text v) first last)
  | charToNum => return .ofNat (((m.text v).toList.head?.map Char.toNat).getD 0)
  | numToChar => return .text (ofCodePoint (intArgAt args 0))
  | offset =>
    return .ofNat (textOffset (Text.lowercase (m.text v)) (Text.lowercase (m.text (argAt args 1))))
  | voidP => return .ofBool v.isVoid
  | objectP => return .ofBool v.isObject
  | listP => return .ofBool v.isList
  | stringP => return .ofBool (match v with | .text _ => true | _ => false)
  | integerP => return .ofBool (match v with | .int _ => true | _ => false)
  | floatP => return .ofBool (match v with | .float _ => true | _ => false)
  | symbolP => return .ofBool (match v with | .symbol _ => true | _ => false)
  | ilk =>
    match args[1]? with
    | none => return .symbol v.ilk
    | some wanted => return .ofBool (isOfIlk v (m.text wanted))

end Function

end Lingo
