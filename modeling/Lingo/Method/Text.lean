import Lingo.Chunk.Edit
import Lingo.Method.Table

/-!
# Methods of texts

Texts answer questions about their length and their chunks.
-/

namespace Lingo

inductive TextMethod where
  | length | char | count | getPropRef | getProp
  deriving DecidableEq, Repr

namespace TextMethod

def table : MethodTable TextMethod :=
  [("length", length), ("char", char), ("count", count), ("getpropref", getPropRef),
   ("getprop", getProp)]

/-- The kind of chunk that a symbol or text names. -/
def chunkKind? : Value → Option ChunkKind
  | .symbol name | .text name => ChunkKind.ofName? name
  | _ => none

/-- The text of a range of chunks; empty when the first is below 1. -/
def chunk (cs : List Char) (kind : ChunkKind) (first last : Int32) (delimiter : Char) : Value :=
  if first.toInt < 1 then .text ""
  else .text (String.ofList (chunkText cs kind first last delimiter))

/-- Calls a method of a text. -/
def run (delimiter : Char) (s : String) (args : Array Value) : TextMethod → Value
  | length => .ofNat s.length
  | char => .text (String.ofList (chunkAt s.toList .char (intArgAt args 0) delimiter))
  | count =>
    let kind := (args[0]?.bind chunkKind?).getD .char
    .ofNat (scriptChunkCount s.toList kind delimiter)
  | getPropRef =>
    match args[0]?.bind chunkKind?, args[1]? with
    | some kind, some i => chunk s.toList kind i.toInt32 i.toInt32 delimiter
    | _, _ => .text ""
  | getProp =>
    match args[0]?.bind chunkKind?, args[1]? with
    | some kind, some first =>
      let last := (args[2]?.getD first).toInt32
      chunk s.toList kind first.toInt32 last delimiter
    | _, _ => .text ""

end TextMethod

end Lingo
