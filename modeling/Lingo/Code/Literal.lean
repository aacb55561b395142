import Lingo.Code.Instruction
import Lingo.Number.Single
import Lingo.Text.Utf8

/-!
# Literals

The constants of a script's literal table, and how they are read from their
stored form: a type code and a payload of bytes.
-/

namespace Lingo

open Number

/-- A constant of a script. -/
inductive Literal where
  | text (s : String)
  | int (n : Int32)
  | float (x : Double)
  deriving DecidableEq, Repr, Inhabited

/-- Whether a literal table need hold only one of two literals. Floats are
compared as numbers: the zeros are the same, and a NaN is like nothing. -/
def Literal.same : Literal → Literal → Bool
  | .text a, .text b => a == b
  | .int a, .int b => a == b
  | .float a, .float b => a.sameNumber b
  | _, _ => false

/-- The first four bytes of a payload as a big-endian number; a shorter payload
holds the low bytes. -/
def leadingWord (payload : List UInt8) : UInt32 :=
  (ofBigEndian (payload.take 4)).toUInt32

/-- Reads a literal: type 1 is a text, which may end in one NUL byte, type 4 an
integer, and type 9 a float of eight bytes, or of four when there are fewer. -/
def Literal.decode (code : UInt32) (payload : List UInt8) : Except DecodeError Literal :=
  if code == 1 then
    let bytes := if payload.getLast? == some 0 then payload.dropLast else payload
    .ok (.text (Text.decodeUtf8 bytes))
  else if code == 4 then .ok (.int (leadingWord payload).toInt32)
  else if code == 9 then
    .ok (.float
      (if 8 ≤ payload.length then ⟨(ofBigEndian (payload.take 8)).toUInt64⟩
      else Single.toDouble ⟨leadingWord payload⟩))
  else .error (.unknownLiteral code)

end Lingo
