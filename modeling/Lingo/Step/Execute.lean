import Lingo.Step.Call
import Lingo.Step.Jump
import Lingo.Step.Property
import Lingo.Step.Stack
import Lingo.Step.Text
import Lingo.Text.Column

/-!
# Executing an instruction

What each operation does. Only division and calls can fail.
-/

namespace Lingo.Step

open Machine

/-- Executes an instruction in the running handler. -/
def execute (c : Calls) (i : Instruction) : Action Unit :=
  match i.opcode with
  | .pushZero => push (.int 0)
  | .pushInt8 | .pushInt16 | .pushInt32 => push (.int i.argument)
  | .pushFloat32 => pushSingle i.argument
  | .pushCons => pushLiteral i.argument
  | .pushSymb => pushSymbol i.argument
  | .swap => swap
  | .pop => discard i.argument
  | .peek => peek i.argument
  | .pushVarRef | .pushChunkVarRef => push (.varRef 0 i.argument)
  | .add => arithmetic .add
  | .sub => arithmetic .sub
  | .mul => arithmetic .mul
  | .div => divide i
  | .mod => modulo i
  | .inv => negate
  | .joinStr => join ""
  | .joinPadStr => join " "
  | .containsStr => contains
  | .contains0Str => startsWith
  | .getChunk => getChunk
  | .putChunk => putChunk i.argument
  | .deleteChunk => deleteChunk i.argument
  | .hiliteChunk => pure ()
  | .lt => ordered (·.isLT)
  | .ltEq => ordered (·.isLE)
  | .gt => ordered (·.isGT)
  | .gtEq => ordered (·.isGE)
  | .eq => equal false
  | .ntEq => equal true
  | .and => logic (· && ·)
  | .or => logic (· || ·)
  | .not => Step.not
  | .ret => ret
  | .retFactory => retFactory
  | .jmp => jump i (i.offset + i.argument.toInt)
  | .jmpIfZ => jumpIfFalse i
  | .endRepeat => endRepeat i
  | .getGlobal | .getGlobal2 => getGlobal i.argument
  | .setGlobal | .setGlobal2 => setGlobal i.argument
  | .getParam => do push (paramAt (← get) i.argument)
  | .setParam => do setParam i.argument (← pop)
  | .getLocal => do push (localAt (← get) i.argument)
  | .setLocal => do setLocal i.argument (← pop)
  | .put => put i.argument
  | .pushList => pushList
  | .pushPropList => pushPropList
  | .pushArgList => pushArgList i.argument true
  | .pushArgListNoRet => pushArgList i.argument false
  | .localCall => localCall c i.argument
  | .extCall => extCall c i.argument
  | .objCall | .objCallV4 => objCall c i.argument
  | .tellCall => tellCall c i.argument
  | .newObj => newObj c i.argument
  | .startTell => startTell
  | .endTell => endTell
  | .callJavaScript => push .void
  | .getProp => getProp i.argument
  | .setProp => setProp i.argument
  | .getMovieProp => getMovieProp i.argument
  | .setMovieProp => setMovieProp i.argument
  | .getObjProp => getObjProp i.argument
  | .setObjProp => setObjProp i.argument
  | .getChainedProp => getChainedProp i.argument
  | .getTopLevelProp => getTopLevelProp i.argument
  | .theBuiltin => theBuiltin i.argument
  | .getField => getField
  | .getById => getById i.argument
  | .setById => setById i.argument
  | .ontoSpr | .intoSpr => spritesOverlap i.opcode
  | .invalid => do
    let handler := (← get).handlerName
    report .warn .vm ("unknown opcode 0x" ++ Text.hexByte i.raw ++ " at offset " ++
      toString i.offset ++ " in " ++ handler)

end Lingo.Step
