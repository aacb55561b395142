import Lingo.Code.Library
import Lingo.Number.Shortest
import Lingo.Text.Column
import Lingo.Text.Quoted

/-!
# Listings

`listing` writes a library as assembly text: one instruction a line, names as
`#name`, literals and unscaled variable slots as operands, jump targets as
labels `@L` with the offset of the target, and behind each instruction, as a
comment, its offset and its bytes.
-/

namespace Lingo

open Number Text

/-- The offset that a jump instruction leads to. -/
def Instruction.jumpTarget? (i : Instruction) : Option Int :=
  match i.opcode with
  | .jmp | .jmpIfZ => some (i.offset + i.argument.toInt)
  | .endRepeat => some (i.offset - i.argument.toInt)
  | _ => none

namespace Listing

def literalText : Literal → String
  | .text s => Text.quote s
  | .int n => toString n.toInt
  | .float x => x.text

/-- The literal with a number. -/
def literalAt? (s : Script) (id : Int32) : Option Literal :=
  if id.toInt < 0 then none else s.literals[id.toInt.toNat]?

/-- The operand of an instruction that takes one. -/
def operandText (lib : Library) (s : Script) (i : Instruction) : String :=
  match i.jumpTarget? with
  | some target => s!"@L{target}"
  | none =>
    if i.opcode.takesName then "#" ++ lib.names.name i.argument
    else if i.opcode.takesSlot then toString (i.argument / lib.slotScale).toInt
    else if i.opcode == .pushCons then
      match literalAt? s i.argument with
      | some literal => literalText literal
      | none => toString i.argument.toInt
    else if i.opcode == .pushFloat32 then (Single.mk i.argument.toUInt32).text
    else toString i.argument.toInt

/-- An instruction as assembly text; a byte that is no opcode becomes a
comment. -/
def instructionText (lib : Library) (s : Script) (i : Instruction) : String :=
  if i.opcode.takesArgument then i.opcode.mnemonic ++ " " ++ operandText lib s i
  else if i.opcode == .invalid then "; INVALID 0x" ++ hexByte i.raw
  else i.opcode.mnemonic

/-- The line of an instruction. -/
def instructionLine (lib : Library) (s : Script) (i : Instruction) : String :=
  "    " ++ padRight 28 (instructionText lib s i) ++ " ; " ++
    padLeft 4 '0' (toString i.offset) ++ " [" ++ " ".intercalate (i.bytes.map hexByte) ++ "]"

/-- The definition of a label at an offset, if a jump leads there. -/
def labelLines (targets : List Int) (offset : Nat) : List String :=
  if targets.contains (offset : Int) then [s!"    @L{offset}:"] else []

/-- The lines of a handler. -/
def handlerLines (lib : Library) (s : Script) (h : Handler) : List String :=
  let params := lib.namesOf h.params
  let locals := lib.namesOf h.locals
  let code := h.code.toList
  let targets := code.filterMap Instruction.jumpTarget?
  ["  handler " ++ lib.names.name h.nameId ++
      (if params.isEmpty then "" else " " ++ ", ".intercalate params)] ++
    (if locals.isEmpty then [] else ["    local " ++ ", ".intercalate locals]) ++
    code.flatMap (fun i => labelLines targets i.offset ++ [instructionLine lib s i]) ++
    labelLines targets h.byteLength ++ ["  end"]

/-- The lines of a script. -/
def scriptLines (lib : Library) (s : Script) : List String :=
  let properties := lib.propertyNames s
  [s!"script {s.member.toInt} {s.kind.name}" ++
      (if s.name.isEmpty then "" else " " ++ Text.quote s.name)] ++
    (if properties.isEmpty then [] else ["  property " ++ ", ".intercalate properties]) ++
    s.handlers.toList.flatMap (handlerLines lib s) ++ ["end"]

/-- The lines of a library. -/
def libraryLines (lib : Library) : List String :=
  [s!"library {lib.number.toInt} " ++ Text.quote lib.name ++ s!" version={lib.version}" ++
      (if lib.capitalX then " capitalx" else "")] ++
    lib.scripts.toList.flatMap (scriptLines lib)

end Listing

/-- A library as assembly text. -/
def listing (lib : Library) : String :=
  String.join ((Listing.libraryLines lib).map (· ++ "\n"))

end Lingo
