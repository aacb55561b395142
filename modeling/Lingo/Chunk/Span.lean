import Lingo.Chunk.Kind
import Lingo.Text.Blank

/-!
# Where chunks are

`chunkSpans` lists the chunks of a text from left to right as stretches of its
characters. The empty text has no chunks. Characters are chunks of their own,
words are the longest runs without blanks, items and lines lie between
delimiters; a terminator at the end of a text opens no further line.
-/

namespace Lingo

/-- A stretch of characters: from position `start` up to, not including,
position `stop`. -/
structure Span where
  start : Nat
  stop : Nat
  deriving DecidableEq, Repr, Inhabited

/-- The characters of a stretch. -/
def Span.slice (span : Span) (cs : List Char) : List Char :=
  (cs.take span.stop).drop span.start

/-- The stretch from the start of one to the end of another. -/
def Span.through (a b : Span) : Span :=
  ⟨a.start, b.stop⟩

/-- Whether a pattern occurs in a text. -/
def occursIn (pattern : List Char) : List Char → Bool
  | [] => pattern.isEmpty
  | c :: rest => pattern.isPrefixOf (c :: rest) || occursIn pattern rest

/-- The line terminator of a text: CR LF if it occurs, else LF if it does, else
CR. -/
def lineDelimiter (cs : List Char) : List Char :=
  if occursIn ['\r', '\n'] cs then ['\r', '\n']
  else if cs.contains '\n' then ['\n']
  else ['\r']

/-- Stretches between the occurrences of a delimiter, found from left to right.
The current stretch began at `start`, the characters left begin at `pos`, and
`skip` of them belong to a delimiter already found. -/
def splitSpans (delimiter : List Char) : Nat → Nat → Nat → List Char → List Span
  | start, pos, _, [] => [⟨start, pos⟩]
  | start, pos, 0, c :: rest =>
    if delimiter.isPrefixOf (c :: rest) then
      ⟨start, pos⟩ ::
        splitSpans delimiter (pos + delimiter.length) (pos + 1) (delimiter.length - 1) rest
    else splitSpans delimiter start (pos + 1) 0 rest
  | start, pos, skip + 1, _ :: rest => splitSpans delimiter start (pos + 1) skip rest

/-- Runs of characters without blanks; `start` is where the current one began. -/
def wordSpans : Option Nat → Nat → List Char → List Span
  | none, _, [] => []
  | some start, pos, [] => [⟨start, pos⟩]
  | none, pos, c :: rest => wordSpans (if Text.isBlank c then none else some pos) (pos + 1) rest
  | some start, pos, c :: rest =>
    if Text.isBlank c then ⟨start, pos⟩ :: wordSpans none (pos + 1) rest
    else wordSpans (some start) (pos + 1) rest

/-- Drops a last stretch that is empty. -/
def dropEmptyLast (spans : List Span) : List Span :=
  match spans.getLast? with
  | some span => if span.start == span.stop then spans.dropLast else spans
  | none => spans

/-- The chunks of a text. -/
def chunkSpans (cs : List Char) (kind : ChunkKind) (delimiter : Char) : List Span :=
  if cs.isEmpty then []
  else
    match kind with
    | .char => (List.range cs.length).map fun i => ⟨i, i + 1⟩
    | .word => wordSpans none 0 cs
    | .line => dropEmptyLast (splitSpans (lineDelimiter cs) 0 0 0 cs)
    | .item => splitSpans [delimiter] 0 0 0 cs

/-- Number of chunks. -/
def chunkCount (cs : List Char) (kind : ChunkKind) (delimiter : Char) : Nat :=
  (chunkSpans cs kind delimiter).length

/-- Number of chunks as scripts see it: the empty text is one empty line and one
empty item. -/
def scriptChunkCount (cs : List Char) (kind : ChunkKind) (delimiter : Char) : Nat :=
  match kind with
  | .line | .item => if cs.isEmpty then 1 else chunkCount cs kind delimiter
  | .char | .word => chunkCount cs kind delimiter

/-- Position of a character in the UTF-8 form of a text. -/
def byteOffset (cs : List Char) (pos : Nat) : Nat :=
  (cs.take pos).foldl (fun n c => n + c.utf8Size) 0

/-- The chunks of a text as stretches of its UTF-8 bytes. -/
def chunkByteSpans (cs : List Char) (kind : ChunkKind) (delimiter : Char) : List (Nat × Nat) :=
  (chunkSpans cs kind delimiter).map fun s => (byteOffset cs s.start, byteOffset cs s.stop)

end Lingo
