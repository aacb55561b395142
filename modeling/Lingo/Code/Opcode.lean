import Lingo.Text.Ascii

/-!
# Opcodes

The operations of Lingo bytecode, each with its code and its mnemonic. Codes
below `0x40` take no argument. Codes from `0x40` on do, and appear in a stream
as `0x40 + n`, `0x80 + n` or `0xC0 + n` for an argument of one, two or four
bytes; `Opcode.ofByte` folds the three onto one operation.
-/

namespace Lingo

/-- An operation; `invalid` stands for every byte that names none. -/
inductive Opcode where
  | ret | retFactory | pushZero | mul | add | sub | div | mod | inv | joinStr | joinPadStr | lt
  | ltEq | ntEq | eq | gt | gtEq | and | or | not | containsStr | contains0Str | getChunk
  | hiliteChunk | ontoSpr | intoSpr | getField | startTell | endTell | pushList | pushPropList
  | swap | callJavaScript | pushInt8 | pushArgListNoRet | pushArgList | pushCons | pushSymb
  | pushVarRef | getGlobal2 | getGlobal | getProp | getParam | getLocal | setGlobal2
  | setGlobal | setProp | setParam | setLocal | jmp | endRepeat | jmpIfZ | localCall | extCall
  | objCallV4 | put | putChunk | deleteChunk | getById | setById | getMovieProp | setMovieProp
  | getObjProp | setObjProp | tellCall | peek | pop | theBuiltin | objCall | pushChunkVarRef
  | pushInt16 | pushInt32 | getChainedProp | pushFloat32 | getTopLevelProp | newObj | invalid
  deriving DecidableEq, Repr, Inhabited

namespace Opcode

/-- Every operation in the order of the codes. -/
def all : List Opcode :=
  [.ret, .retFactory, .pushZero, .mul, .add, .sub, .div, .mod, .inv, .joinStr, .joinPadStr,
   .lt, .ltEq, .ntEq, .eq, .gt, .gtEq, .and, .or, .not, .containsStr, .contains0Str, .getChunk,
   .hiliteChunk, .ontoSpr, .intoSpr, .getField, .startTell, .endTell, .pushList, .pushPropList,
   .swap, .callJavaScript, .pushInt8, .pushArgListNoRet, .pushArgList, .pushCons, .pushSymb,
   .pushVarRef, .getGlobal2, .getGlobal, .getProp, .getParam, .getLocal, .setGlobal2,
   .setGlobal, .setProp, .setParam, .setLocal, .jmp, .endRepeat, .jmpIfZ, .localCall, .extCall,
   .objCallV4, .put, .putChunk, .deleteChunk, .getById, .setById, .getMovieProp, .setMovieProp,
   .getObjProp, .setObjProp, .tellCall, .peek, .pop, .theBuiltin, .objCall, .pushChunkVarRef,
   .pushInt16, .pushInt32, .getChainedProp, .pushFloat32, .getTopLevelProp, .newObj]

/-- The code of an operation, in its one-byte-argument form. -/
def code : Opcode → Nat
  | .ret => 0x01
  | .retFactory => 0x02
  | .pushZero => 0x03
  | .mul => 0x04
  | .add => 0x05
  | .sub => 0x06
  | .div => 0x07
  | .mod => 0x08
  | .inv => 0x09
  | .joinStr => 0x0A
  | .joinPadStr => 0x0B
  | .lt => 0x0C
  | .ltEq => 0x0D
  | .ntEq => 0x0E
  | .eq => 0x0F
  | .gt => 0x10
  | .gtEq => 0x11
  | .and => 0x12
  | .or => 0x13
  | .not => 0x14
  | .containsStr => 0x15
  | .contains0Str => 0x16
  | .getChunk => 0x17
  | .hiliteChunk => 0x18
  | .ontoSpr => 0x19
  | .intoSpr => 0x1A
  | .getField => 0x1B
  | .startTell => 0x1C
  | .endTell => 0x1D
  | .pushList => 0x1E
  | .pushPropList => 0x1F
  | .swap => 0x21
  | .callJavaScript => 0x26
  | .pushInt8 => 0x41
  | .pushArgListNoRet => 0x42
  | .pushArgList => 0x43
  | .pushCons => 0x44
  | .pushSymb => 0x45
  | .pushVarRef => 0x46
  | .getGlobal2 => 0x48
  | .getGlobal => 0x49
  | .getProp => 0x4A
  | .getParam => 0x4B
  | .getLocal => 0x4C
  | .setGlobal2 => 0x4E
  | .setGlobal => 0x4F
  | .setProp => 0x50
  | .setParam => 0x51
  | .setLocal => 0x52
  | .jmp => 0x53
  | .endRepeat => 0x54
  | .jmpIfZ => 0x55
  | .localCall => 0x56
  | .extCall => 0x57
  | .objCallV4 => 0x58
  | .put => 0x59
  | .putChunk => 0x5A
  | .deleteChunk => 0x5B
  | .getById => 0x5C
  | .setById => 0x5D
  | .getMovieProp => 0x5F
  | .setMovieProp => 0x60
  | .getObjProp => 0x61
  | .setObjProp => 0x62
  | .tellCall => 0x63
  | .peek => 0x64
  | .pop => 0x65
  | .theBuiltin => 0x66
  | .objCall => 0x67
  | .pushChunkVarRef => 0x6D
  | .pushInt16 => 0x6E
  | .pushInt32 => 0x6F
  | .getChainedProp => 0x70
  | .pushFloat32 => 0x71
  | .getTopLevelProp => 0x72
  | .newObj => 0x73
  | .invalid => 0x00

/-- The name of an operation in assembly text. -/
def mnemonic : Opcode → String
  | .ret => "RET"
  | .retFactory => "RET_FACTORY"
  | .pushZero => "PUSH_ZERO"
  | .mul => "MUL"
  | .add => "ADD"
  | .sub => "SUB"
  | .div => "DIV"
  | .mod => "MOD"
  | .inv => "INV"
  | .joinStr => "JOIN_STR"
  | .joinPadStr => "JOIN_PAD_STR"
  | .lt => "LT"
  | .ltEq => "LT_EQ"
  | .ntEq => "NT_EQ"
  | .eq => "EQ"
  | .gt => "GT"
  | .gtEq => "GT_EQ"
  | .and => "AND"
  | .or => "OR"
  | .not => "NOT"
  | .containsStr => "CONTAINS_STR"
  | .contains0Str => "CONTAINS_0_STR"
  | .getChunk => "GET_CHUNK"
  | .hiliteChunk => "HILITE_CHUNK"
  | .ontoSpr => "ONTO_SPR"
  | .intoSpr => "INTO_SPR"
  | .getField => "GET_FIELD"
  | .startTell => "START_TELL"
  | .endTell => "END_TELL"
  | .pushList => "PUSH_LIST"
  | .pushPropList => "PUSH_PROP_LIST"
  | .swap => "SWAP"
  | .callJavaScript => "CALL_JAVASCRIPT"
  | .pushInt8 => "PUSH_INT8"
  | .pushArgListNoRet => "PUSH_ARG_LIST_NO_RET"
  | .pushArgList => "PUSH_ARG_LIST"
  | .pushCons => "PUSH_CONS"
  | .pushSymb => "PUSH_SYMB"
  | .pushVarRef => "PUSH_VAR_REF"
  | .getGlobal2 => "GET_GLOBAL2"
  | .getGlobal => "GET_GLOBAL"
  | .getProp => "GET_PROP"
  | .getParam => "GET_PARAM"
  | .getLocal => "GET_LOCAL"
  | .setGlobal2 => "SET_GLOBAL2"
  | .setGlobal => "SET_GLOBAL"
  | .setProp => "SET_PROP"
  | .setParam => "SET_PARAM"
  | .setLocal => "SET_LOCAL"
  | .jmp => "JMP"
  | .endRepeat => "END_REPEAT"
  | .jmpIfZ => "JMP_IF_Z"
  | .localCall => "LOCAL_CALL"
  | .extCall => "EXT_CALL"
  | .objCallV4 => "OBJ_CALL_V4"
  | .put => "PUT"
  | .putChunk => "PUT_CHUNK"
  | .deleteChunk => "DELETE_CHUNK"
  | .getById => "GET"
  | .setById => "SET"
  | .getMovieProp => "GET_MOVIE_PROP"
  | .setMovieProp => "SET_MOVIE_PROP"
  | .getObjProp => "GET_OBJ_PROP"
  | .setObjProp => "SET_OBJ_PROP"
  | .tellCall => "TELL_CALL"
  | .peek => "PEEK"
  | .pop => "POP"
  | .theBuiltin => "THE_BUILTIN"
  | .objCall => "OBJ_CALL"
  | .pushChunkVarRef => "PUSH_CHUNK_VAR_REF"
  | .pushInt16 => "PUSH_INT16"
  | .pushInt32 => "PUSH_INT32"
  | .getChainedProp => "GET_CHAINED_PROP"
  | .pushFloat32 => "PUSH_FLOAT32"
  | .getTopLevelProp => "GET_TOP_LEVEL_PROP"
  | .newObj => "NEW_OBJ"
  | .invalid => "INVALID"

/-- The operation that a byte of a stream stands for. -/
def ofByte (raw : UInt8) : Opcode :=
  let code := if raw.toNat < 0x40 then raw.toNat else 0x40 + raw.toNat % 0x40
  (all.find? (·.code == code)).getD .invalid

/-- The operation with a mnemonic, written in any case. -/
def ofMnemonic? (word : String) : Option Opcode :=
  all.find? fun op => Text.sameName op.mnemonic word

/-- Whether instructions of this operation carry an argument. -/
def takesArgument (op : Opcode) : Bool :=
  0x40 ≤ op.code

/-- Whether the argument is an index into the table of names. -/
def takesName : Opcode → Bool
  | .pushSymb | .getGlobal | .getGlobal2 | .setGlobal | .setGlobal2 | .getProp | .setProp
  | .extCall | .objCall | .objCallV4 | .tellCall | .newObj | .getMovieProp | .setMovieProp
  | .getObjProp | .setObjProp | .getChainedProp | .getTopLevelProp | .theBuiltin => true
  | _ => false

/-- Whether the argument is a scaled variable slot. -/
def takesSlot : Opcode → Bool
  | .getParam | .setParam | .getLocal | .setLocal => true
  | _ => false

theorem mem_all {op : Opcode} (h : op ≠ .invalid) : op ∈ all := by
  revert h
  cases op <;> decide

end Opcode

end Lingo
