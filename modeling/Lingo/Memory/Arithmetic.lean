import Lingo.Memory

/-!
# Arithmetic of values

Integers wrap at 32 bits. If either operand is a float, or a text that spells a
number but no 32-bit integer, the result is a float. Points, rects and lists
combine element by element, a number applying to every element.
-/

namespace Lingo

open Number

/-- The operations that share the rules for mixed operands. -/
inductive ArithOp where
  | add | sub | mul
  deriving DecidableEq, Repr, Inhabited

namespace ArithOp

def ints : ArithOp → Int32 → Int32 → Int32
  | add, a, b => a + b
  | sub, a, b => a - b
  | mul, a, b => a * b

def doubles : ArithOp → Double → Double → Double
  | add => Double.add
  | sub => Double.sub
  | mul => Double.mul

end ArithOp

namespace Value

/-- Whether a value makes the result of an operation a float. -/
def isFloaty : Value → Bool
  | .float _ => true
  | .text s => (readInt32? s).isNone && (readDouble? s).isSome
  | _ => false

/-- Combines two values as numbers. -/
def scalar (op : ArithOp) (a b : Value) : Value :=
  if a.isFloaty || b.isFloaty then .float (op.doubles a.toDouble b.toDouble)
  else .int (op.ints a.toInt32 b.toInt32)

/-- The quotient; none when the divisor is zero. Integers divide toward zero. -/
def quotient? (a b : Value) : Option Value :=
  if b.toDouble.isZero then none
  else if a.isFloaty || b.isFloaty then some (.float (a.toDouble.div b.toDouble))
  else some (.int (a.toInt32 / b.toInt32))

/-- The remainder; none when the divisor is zero. -/
def remainder? (a b : Value) : Option Value :=
  if a.isFloaty || b.isFloaty then
    if b.toDouble.isZero then none else some (.float (a.toDouble.rem b.toDouble))
  else if b.toInt32 == 0 then none
  else some (.int (a.toInt32 % b.toInt32))

end Value

namespace Memory

open Alloc

/-- The element at a position as an integer, 0 past the end. -/
def intAt (m : Memory) (cell i : Nat) : Int32 :=
  ((m.list cell)[i]?.map Value.toInt32).getD 0

/-- The components of an operand that meets a point. -/
def pointParts (m : Memory) : Value → Point
  | .point cell => m.point cell
  | .list cell => ⟨m.intAt cell 0, m.intAt cell 1⟩
  | v => ⟨v.toInt32, v.toInt32⟩

/-- The edges of an operand that meets a rect. -/
def rectParts (m : Memory) : Value → Rect
  | .rect cell => m.rect cell
  | .list cell => ⟨m.intAt cell 0, m.intAt cell 1, m.intAt cell 2, m.intAt cell 3⟩
  | v => ⟨v.toInt32, v.toInt32, v.toInt32, v.toInt32⟩

/-- Combines two operands as points. -/
def combinePoints (op : ArithOp) (a b : Value) : Alloc Value := do
  let p := (← get).pointParts a
  let q := (← get).pointParts b
  newPoint ⟨op.ints p.x q.x, op.ints p.y q.y⟩

/-- Combines two operands as rects. -/
def combineRects (op : ArithOp) (a b : Value) : Alloc Value := do
  let p := (← get).rectParts a
  let q := (← get).rectParts b
  newRect ⟨op.ints p.left q.left, op.ints p.top q.top, op.ints p.right q.right,
    op.ints p.bottom q.bottom⟩

/-- Combines two values, looking `fuel - 1` levels into lists. -/
def combineTo (op : ArithOp) : Nat → Value → Value → Alloc Value
  | 0, _, _ => pure .void
  | fuel + 1, a, b => do
    match a, b with
    | .point _, _ | .list _, .point _ => combinePoints op a b
    | .rect _, _ | .list _, .rect _ => combineRects op a b
    | .list x, .list y =>
      let m ← get
      newList (← ((m.list x).zip (m.list y)).mapM fun (u, v) => combineTo op fuel u v)
    | .list x, _ => newList (← ((← get).list x).mapM fun u => combineTo op fuel u b)
    | _, .list y => newList (← ((← get).list y).mapM fun v => combineTo op fuel a v)
    | _, _ => pure (Value.scalar op a b)

/-- Applies an operation to two values. Either may nest lists, so both sides
count toward the depth. -/
def combine (op : ArithOp) (a b : Value) : Alloc Value := do
  combineTo op (2 * (← get).levels) a b

/-- Negation. Points negate by component; other containers count as 0. -/
def negate (a : Value) : Alloc Value := do
  match a with
  | .point cell =>
    let p := (← get).point cell
    newPoint ⟨-p.x, -p.y⟩
  | a => pure (if a.isFloaty then .float a.toDouble.neg else .int (-a.toInt32))

end Memory

end Lingo
