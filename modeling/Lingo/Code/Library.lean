import Lingo.Code.Literal
import Lingo.Code.Names

/-!
# Libraries of scripts

A cast library holds scripts, each with handlers and a table of literals, and
one table of names for all of them. Instruction arguments that name a variable
slot are stored multiplied by the library's `slotScale`.
-/

namespace Lingo

/-- What a script is attached to. -/
inductive ScriptKind where
  | score | behavior | movie | parent | unknown
  deriving DecidableEq, Repr, Inhabited

namespace ScriptKind

def ofCode (code : Int32) : ScriptKind :=
  if code == 1 then .score
  else if code == 2 then .behavior
  else if code == 3 then .movie
  else if code == 7 then .parent
  else .unknown

def name : ScriptKind → String
  | .score => "score"
  | .behavior => "behavior"
  | .movie => "movie"
  | .parent => "parent"
  | .unknown => "unknown"

/-- The kind with a name in any case; `unknown` has no name in texts. -/
def ofName? (word : String) : Option ScriptKind :=
  [score, behavior, movie, parent].find? fun k => Text.sameName k.name word

end ScriptKind

/-- A handler: a procedure of a script. -/
structure Handler where
  /-- Number of the handler's name. -/
  nameId : Int32
  /-- Position by which calls within the script address the handler. -/
  vectorPos : Int32 := -1
  /-- Numbers of the parameter names. -/
  params : List Int32 := []
  /-- Numbers of the local variables' names. -/
  locals : List Int32 := []
  code : Array Instruction := #[]
  deriving DecidableEq, Repr, Inhabited

namespace Handler

/-- Number of declared local variables. -/
def localCount (h : Handler) : Nat :=
  h.locals.length

/-- Index of the instruction that starts at a byte offset. -/
def indexAt? (h : Handler) (offset : Nat) : Option Nat :=
  h.code.findIdx? (·.offset == offset)

/-- Length of the handler's bytes. -/
def byteLength (h : Handler) : Nat :=
  match h.code.back? with
  | some i => i.offset + i.width
  | none => 0

end Handler

/-- A script member. -/
structure Script where
  /-- Number of the member in its library. -/
  member : Int32
  kind : ScriptKind
  /-- Name of the member; empty when it has none. -/
  name : String := ""
  /-- Numbers of the declared property names. -/
  properties : List Int32 := []
  literals : Array Literal := #[]
  handlers : Array Handler := #[]
  deriving DecidableEq, Repr, Inhabited

/-- A cast library. -/
structure Library where
  number : Int32 := 1
  name : String := "Internal"
  /-- Version of the authoring format. -/
  version : UInt32 := 1200
  /-- Whether variable slots are stored unscaled. -/
  capitalX : Bool := false
  names : Names := {}
  scripts : Array Script := #[]
  deriving DecidableEq, Repr, Inhabited

/-- Index of the first handler with a name. -/
def Script.handlerNamed? (s : Script) (names : Names) (name : String) : Option Nat :=
  s.handlers.findIdx? fun h => (names.get? h.nameId).any (Text.sameName · name)

namespace Library

/-- What variable slots are multiplied by in instruction arguments. -/
def slotScale (lib : Library) : Int32 :=
  if lib.capitalX then 1 else if 500 ≤ lib.version then 8 else 6

/-- The script with a member number. -/
def scriptAt? (lib : Library) (member : Int32) : Option Script :=
  lib.scripts.find? (·.member == member)

/-- The first script with a name; unnamed scripts have none. -/
def scriptNamed? (lib : Library) (name : String) : Option Script :=
  lib.scripts.find? fun s => !s.name.isEmpty && Text.sameName s.name name

/-- Names with the given numbers. -/
def namesOf (lib : Library) (ids : List Int32) : List String :=
  ids.map lib.names.name

/-- Names of the properties that a script declares. -/
def propertyNames (lib : Library) (s : Script) : List String :=
  lib.namesOf s.properties

end Library

/-! ## Likeness -/

/-- Whether two lists have equal lengths and related elements. -/
def pairwiseSame {α : Type} (same : α → α → Bool) (xs ys : Array α) : Bool :=
  xs.size == ys.size && (xs.toList.zip ys.toList).all fun (x, y) => same x y

/-- Whether two scripts are alike: equal but for their literals, which are
compared by `Literal.same`. -/
def Script.same (s t : Script) : Bool :=
  { s with literals := #[] } == { t with literals := #[] } &&
    pairwiseSame Literal.same s.literals t.literals

/-- Whether two libraries are alike, script by script. -/
def Library.same (a b : Library) : Bool :=
  { a with scripts := #[] } == { b with scripts := #[] } &&
    pairwiseSame Script.same a.scripts b.scripts

end Lingo
