import Lingo.Assembly.Error
import Lingo.Code.Library

/-!
# Laying out a handler

Instructions are written with labels; a label becomes a distance in bytes, whose
width depends on the widths of the instructions in between, which may depend on
other distances. `layout` starts with every instruction as narrow as it can be
and widens those whose argument does not fit until all do. Sizes never shrink
and are at most five bytes, so for `n` instructions `3 * n + 1` rounds suffice.
-/

namespace Lingo

/-- The argument of an instruction as written. -/
inductive Operand where
  | absent
  | value (n : Int32)
  | label (name : String)
  deriving DecidableEq, Repr

/-- An instruction as written, with its line. -/
structure Pending where
  line : Nat
  opcode : Opcode
  operand : Operand
  deriving DecidableEq, Repr

/-- Labels and the number of instructions before each. -/
abbrev Labels := List (String × Nat)

namespace Layout

/-- Bytes of an instruction with its narrowest argument. -/
def size (op : Opcode) (argument : Int32) : Nat :=
  1 + op.narrowest argument

/-- The size that an instruction has at least. -/
def leastSize (p : Pending) : Nat :=
  size p.opcode (match p.operand with | .value n => n | _ => 0)

/-- Where each instruction starts and where the last one ends. -/
def offsetsFrom : Nat → List Nat → List Nat
  | pos, [] => [pos]
  | pos, s :: rest => pos :: offsetsFrom (pos + s) rest

/-- The jump argument that leads from one offset to another. The end of a loop
counts backward, every other jump forward. -/
def distance (op : Opcode) (start target : Nat) : Int32 :=
  if op == .endRepeat then Int32.ofInt (start - target) else Int32.ofInt (target - start)

/-- The argument of the instruction at `start`, for given offsets. -/
def argument (labels : Labels) (offsets : Array Nat) (p : Pending) (start : Nat) :
    Except AsmError Int32 :=
  match p.operand with
  | .absent => .ok 0
  | .value n => .ok n
  | .label name =>
    match labels.lookup name with
    | some target => .ok (distance p.opcode start (offsets[target]?.getD 0))
    | none => .error ⟨p.line, .undefinedLabel name⟩

/-- The arguments of all instructions, for given offsets. -/
def arguments (body : List Pending) (labels : Labels) (offsets : List Nat) :
    Except AsmError (List Int32) :=
  let table := offsets.toArray
  (body.zip offsets).mapM fun (p, start) => argument labels table p start

/-- Sizes that hold the given arguments and are no smaller than before. -/
def grow (body : List Pending) (args : List Int32) (sizes : List Nat) : List Nat :=
  ((body.zip args).zip sizes).map fun ((p, arg), s) => max (size p.opcode arg) s

/-- The instructions for settled sizes and arguments. -/
def place (body : List Pending) (args : List Int32) (sizes offsets : List Nat) :
    List Instruction :=
  ((body.zip args).zip (sizes.zip offsets)).map fun ((p, arg), (s, start)) =>
    ⟨start, p.opcode, p.opcode.byteFor (s - 1), arg⟩

/-- Widens instructions for up to `rounds` rounds. -/
def settle (body : List Pending) (labels : Labels) :
    Nat → List Nat → Except AsmError (List Instruction)
  | rounds, sizes =>
    let offsets := offsetsFrom 0 sizes
    match arguments body labels offsets with
    | .error e => .error e
    | .ok args =>
      let grown := grow body args sizes
      if grown == sizes then .ok (place body args sizes offsets)
      else
        match rounds with
        | 0 => .ok (place body args sizes offsets)
        | rounds + 1 => settle body labels rounds grown

end Layout

open Layout in
/-- Gives every instruction its place and resolves the labels. -/
def layout (body : List Pending) (labels : Labels) : Except AsmError (List Instruction) :=
  settle body labels (3 * body.length) (body.map leastSize)

end Lingo
