import Lingo.Step.Variable
import Lingo.Text.Lowercase

/-!
# Texts and chunks

Joining and searching texts, and chunk expressions. A chunk expression is eight
integers on the operand stack: a first and a last position for characters,
words, items and lines, pushed in this order. A pair of zeros is not in use.
-/

namespace Lingo.Step

open Machine

def join (separator : String) : Update Unit := do
  let b ← pop
  let a ← pop
  let m := (← get).memory
  push (.text (m.text a ++ separator ++ m.text b))

/-- Whether one text contains another, without regard to case. -/
def contains : Update Unit := do
  let needle ← pop
  let haystack ← pop
  let m := (← get).memory
  push (.ofBool (occursIn (Text.lowercase (m.text needle)).toList
    (Text.lowercase (m.text haystack)).toList))

/-- Whether one text starts with another, without regard to case. Nothing
starts void. -/
def startsWith : Update Unit := do
  let needle ← pop
  let haystack ← pop
  let m := (← get).memory
  push (.ofBool (!haystack.isVoid &&
    (Text.lowercase (m.text needle)).toList.isPrefixOf (Text.lowercase (m.text haystack)).toList))

/-! ## Chunk expressions -/

/-- One level of a chunk expression. -/
structure ChunkLevel where
  kind : ChunkKind
  first : Int32
  last : Int32
  deriving DecidableEq, Repr

def ChunkLevel.used (level : ChunkLevel) : Bool :=
  level.first != 0 || level.last != 0

/-- Takes the two operands of one level. -/
def popLevel (kind : ChunkKind) : Update ChunkLevel := do
  let last ← pop
  let first ← pop
  return ⟨kind, first.toInt32, last.toInt32⟩

/-- Takes the eight operands: the levels in use, outermost first. -/
def popChunk : Update (List ChunkLevel) := do
  let line ← popLevel .line
  let item ← popLevel .item
  let word ← popLevel .word
  let char ← popLevel .char
  return [line, item, word, char].filter ChunkLevel.used

/-- The level that a change applies to: the outermost in use, or else the first
character. -/
def outermost (levels : List ChunkLevel) : ChunkLevel :=
  levels.headD ⟨.char, 1, 1⟩

/-- Narrows a text level by level. -/
def narrow (delimiter : Char) (cs : List Char) (levels : List ChunkLevel) : List Char :=
  levels.foldl (fun cs level => chunkText cs level.kind level.first level.last delimiter) cs

def getChunk : Update Unit := do
  let v ← pop
  let levels ← popChunk
  let m ← get
  push (.text (String.ofList (narrow m.config.itemDelimiter (m.memory.text v).toList levels)))

/-- Puts a changed text back into a variable. -/
def changeVariable (target : VariableRef) (f : Char → List Char → List Char) : Update Unit := do
  let m ← get
  let current := (m.memory.text (variableValue m target)).toList
  setVariable target (.text (String.ofList (f m.config.itemDelimiter current)))

/-- `put value into|after|before chunk of variable`. -/
def putChunk (argument : Int32) : Update Unit := do
  let kind := argument &&& 0xF
  let target? ← popVariable kind
  let value ← pop
  let level := outermost (← popChunk)
  match target? with
  | none => report .warn .vm ("PUT_CHUNK: unsupported variable kind " ++ toString kind.toInt)
  | some target =>
    let text := ((← get).memory.text value).toList
    changeVariable target fun delimiter cs =>
      Lingo.putChunk cs level.kind level.first level.last (putMode argument) text delimiter

/-- `delete chunk of variable`. -/
def deleteChunk (kind : Int32) : Update Unit := do
  let target? ← popVariable kind
  let level := outermost (← popChunk)
  match target? with
  | none => report .warn .vm ("DELETE_CHUNK: unsupported variable kind " ++ toString kind.toInt)
  | some target =>
    changeVariable target fun delimiter cs =>
      Lingo.deleteChunk cs level.kind level.first level.last delimiter

end Lingo.Step
