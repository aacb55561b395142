import Lingo.Code.Opcode

/-!
# Instructions and their bytes

An instruction is stored as an opcode byte and a big-endian argument of no,
one, two or four bytes. `decode` reads a stream of them and fails only when the
stream ends inside an argument; `encode` writes one instruction with the
narrowest argument that reads back.

Four-byte arguments are signed. Narrower ones are unsigned, except for
`PUSH_INT8` at both widths and `PUSH_INT16` at two bytes.
-/

namespace Lingo

/-- An instruction at its place in a handler. -/
structure Instruction where
  /-- Position of the opcode byte in the handler's bytes. -/
  offset : Nat
  opcode : Opcode
  /-- The opcode byte as stored, which fixes the width of the argument. -/
  raw : UInt8
  argument : Int32
  deriving DecidableEq, Repr, Inhabited

/-- Why a stream of bytes or a literal cannot be read. -/
inductive DecodeError where
  /-- The argument of the opcode at `offset` needs `width` bytes, and only
  `available` are left. -/
  | truncated (offset width available : Nat)
  /-- A literal has a type code that no kind of literal has. -/
  | unknownLiteral (code : UInt32)
  deriving DecidableEq, Repr

def DecodeError.message : DecodeError → String
  | .truncated offset width available =>
    s!"truncated argument at offset {offset}: need {width} byte(s), {available} left"
  | .unknownLiteral code => s!"unknown literal type code {code}"

/-- Bytes of the argument that follows an opcode byte. -/
def argumentWidth (raw : UInt8) : Nat :=
  if raw.toNat < 0x40 then 0
  else if raw.toNat < 0x80 then 1
  else if raw.toNat < 0xC0 then 2
  else 4

/-- Bytes of an instruction. -/
def Instruction.width (i : Instruction) : Nat :=
  1 + argumentWidth i.raw

/-- Whether an argument of `width` bytes is signed. -/
def Opcode.signedAt (op : Opcode) (width : Nat) : Bool :=
  width == 4 || (width == 2 && (op == .pushInt8 || op == .pushInt16)) ||
    (width == 1 && op == .pushInt8)

/-- The number that big-endian bytes spell. -/
def ofBigEndian (bytes : List UInt8) : Nat :=
  bytes.foldl (fun n b => n * 256 + b.toNat) 0

/-- The low `width` bytes of a number, most significant first. -/
def toBigEndian : Nat → Nat → List UInt8
  | 0, _ => []
  | width + 1, n => toBigEndian width (n / 256) ++ [(n % 256).toUInt8]

/-- The argument that its bytes stand for. -/
def decodeArgument (op : Opcode) (bytes : List UInt8) : Int32 :=
  let n := ofBigEndian bytes
  if op.signedAt bytes.length then Int32.ofInt (Int.bmod n (Nat.pow 256 bytes.length))
  else Int32.ofNat n

/-- Reads the instructions of a stream whose first byte has position `offset`;
`done` holds those already read, last first. -/
def decodeFrom (done : List Instruction) (offset : Nat) :
    List UInt8 → Except DecodeError (List Instruction)
  | [] => .ok done.reverse
  | raw :: rest =>
    let width := argumentWidth raw
    let argument := rest.take width
    if argument.length < width then .error (.truncated offset width rest.length)
    else
      let op := Opcode.ofByte raw
      decodeFrom (⟨offset, op, raw, decodeArgument op argument⟩ :: done)
        (offset + 1 + width) (rest.drop width)
  termination_by bytes => bytes.length
  decreasing_by simp only [List.length_drop, List.length_cons]; omega

/-- Reads a handler's bytes. -/
def decode (bytes : List UInt8) : Except DecodeError (List Instruction) :=
  decodeFrom [] 0 bytes

/-- Whether an argument of `width` bytes can hold a value. -/
def Opcode.fits (op : Opcode) (width : Nat) (argument : Int32) : Bool :=
  let n := argument.toInt
  let values : Int := Nat.pow 256 width
  if op.signedAt width then -(values / 2) ≤ n && n < values / 2 else 0 ≤ n && n < values

/-- The narrowest argument width that holds a value. -/
def Opcode.narrowest (op : Opcode) (argument : Int32) : Nat :=
  if !op.takesArgument then 0
  else if op.fits 1 argument then 1
  else if op.fits 2 argument then 2
  else 4

/-- The opcode byte for an argument of `width` bytes. -/
def Opcode.byteFor (op : Opcode) (width : Nat) : UInt8 :=
  if !op.takesArgument then op.code.toUInt8
  else if width ≤ 1 then op.code.toUInt8
  else if width == 2 then (op.code + 0x40).toUInt8
  else (op.code + 0x80).toUInt8

/-- The low `width` bytes of an argument, most significant first. -/
def argumentBytes (width : Nat) (argument : Int32) : List UInt8 :=
  toBigEndian width argument.toUInt32.toNat

/-- The bytes of an operation and its argument, as narrow as they can be. -/
def encode (op : Opcode) (argument : Int32) : List UInt8 :=
  let width := op.narrowest argument
  op.byteFor width :: argumentBytes width argument

/-- The bytes of an instruction as it is stored. -/
def Instruction.bytes (i : Instruction) : List UInt8 :=
  i.raw :: argumentBytes (argumentWidth i.raw) i.argument

/-- The instruction with its narrowest encoding. -/
def Instruction.narrow (offset : Nat) (op : Opcode) (argument : Int32) : Instruction :=
  ⟨offset, op, op.byteFor (op.narrowest argument), argument⟩

end Lingo
