import Lingo.Text.Ascii

/-!
# Kinds of chunks

The units in which a text is addressed, with the codes and names they have in
instructions and scripts.
-/

namespace Lingo

/-- The unit of a chunk expression. -/
inductive ChunkKind where
  /-- Separated by the item delimiter. -/
  | item
  /-- Separated by blanks. -/
  | word
  | char
  /-- Separated by the text's line terminator. -/
  | line
  deriving DecidableEq, Repr, Inhabited

namespace ChunkKind

def all : List ChunkKind := [item, word, char, line]

def code : ChunkKind → Int32
  | item => 1
  | word => 2
  | char => 3
  | line => 4

def name : ChunkKind → String
  | item => "item"
  | word => "word"
  | char => "char"
  | line => "line"

def ofCode? (code : Int32) : Option ChunkKind :=
  all.find? (·.code == code)

/-- The kind with a name in any case. -/
def ofName? (name : String) : Option ChunkKind :=
  all.find? fun k => Text.sameName k.name name

end ChunkKind

end Lingo
