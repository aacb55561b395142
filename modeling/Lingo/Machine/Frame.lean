import Lingo.Cast

/-!
# Frames

A frame is one activation of a handler: its operand stack, its variables, its
place in the code and its result. Stacks are lists with the top, or the
innermost entry, first. Reading beyond what there is gives void.
-/

namespace Lingo

/-- Local variables that a handler can address. -/
def maxLocals : Nat := 65536

/-- One activation of a handler. -/
structure Frame where
  site : HandlerSite
  /-- The arguments of the call; a receiver is the first of them. -/
  args : Array Value
  receiver : Value := .void
  /-- Arguments that were assigned to, by position. -/
  params : List (Nat × Value) := []
  locals : Array Value := #[]
  stack : List Value := []
  /-- Index of the next instruction. -/
  cursor : Nat := 0
  returned : Bool := false
  result : Value := .void
  /-- Heads of the loops that were repeated, innermost first. -/
  loops : List Nat := []
  /-- Targets of the enclosing `tell` blocks, innermost first. -/
  tells : List Value := []

namespace Frame

/-- A fresh activation; declared locals start as void. -/
def enter (site : HandlerSite) (args : Array Value) (receiver : Value) : Frame :=
  { site, args, receiver, locals := Array.replicate site.handler.localCount .void }

def library (f : Frame) : Library :=
  f.site.library

def script (f : Frame) : Script :=
  f.site.script

def handler (f : Frame) : Handler :=
  f.site.handler

/-! ## Place in the code -/

def current? (f : Frame) : Option Instruction :=
  f.handler.code[f.cursor]?

def advance (f : Frame) : Frame :=
  { f with cursor := f.cursor + 1 }

def goto (f : Frame) (index : Nat) : Frame :=
  { f with cursor := index }

def hasMore (f : Frame) : Bool :=
  f.cursor < f.handler.code.size

/-- The index of the instruction at a byte offset; the end of the code counts as
one. -/
def indexAt? (f : Frame) (offset : Int) : Option Nat :=
  if offset < 0 then none
  else if offset.toNat == f.handler.byteLength then some f.handler.code.size
  else f.handler.indexAt? offset.toNat

/-! ## Operand stack -/

def push (f : Frame) (v : Value) : Frame :=
  { f with stack := v :: f.stack }

def pop (f : Frame) : Value × Frame :=
  match f.stack with
  | [] => (.void, f)
  | v :: rest => (v, { f with stack := rest })

/-- Takes up to `n` values, in the order in which they were pushed. -/
def popMany (f : Frame) (n : Nat) : Array Value × Frame :=
  ((f.stack.take n).reverse.toArray, { f with stack := f.stack.drop n })

def discard (f : Frame) (n : Nat) : Frame :=
  { f with stack := f.stack.drop n }

/-- The value `depth` places below the top. -/
def peek (f : Frame) (depth : Nat) : Value :=
  f.stack[depth]?.getD .void

/-- Exchanges the two topmost values. -/
def swap (f : Frame) : Frame :=
  match f.stack with
  | a :: b :: rest => { f with stack := b :: a :: rest }
  | _ => f

/-! ## Variables -/

/-- An argument as last assigned. -/
def paramAt (f : Frame) (i : Nat) : Value :=
  match f.params.lookup i with
  | some v => v
  | none => f.args[i]?.getD .void

def setParam (f : Frame) (i : Nat) (v : Value) : Frame :=
  { f with params := (i, v) :: f.params.filter (·.1 != i) }

def localAt (f : Frame) (i : Nat) : Value :=
  f.locals[i]?.getD .void

/-- Assigns a local variable. Undeclared ones come into being, up to
`maxLocals`; an assignment beyond that is dropped. -/
def setLocal (f : Frame) (i : Nat) (v : Value) : Frame :=
  if maxLocals ≤ i then f
  else
    let locals := f.locals ++ Array.replicate (i + 1 - f.locals.size) .void
    { f with locals := locals.setIfInBounds i v }

/-! ## Result -/

/-- Sets the result and ends the activation. -/
def finish (f : Frame) (v : Value) : Frame :=
  { f with result := v, returned := true }

/-- Takes the result out. -/
def takeResult (f : Frame) : Value × Frame :=
  (f.result, { f with result := .void })

/-! ## Loops and `tell` blocks -/

/-- Goes back to the head of a loop, which becomes the innermost one: loops that
start behind it are over. -/
def repeatFrom (f : Frame) (index : Nat) : Frame :=
  let outer := f.loops.dropWhile (index < ·)
  let loops := if outer.head? == some index then outer else index :: outer
  { f with loops, cursor := index }

def pushTell (f : Frame) (target : Value) : Frame :=
  { f with tells := target :: f.tells }

def popTell (f : Frame) : Frame :=
  { f with tells := f.tells.tail }

end Frame

end Lingo
