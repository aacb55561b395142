import Lingo.Chunk.Span

/-!
# Reading and changing chunks

A request names a first and a last chunk, counted from 1; `chunkRange` turns it
into positions in the list of chunks. `chunkText` reads the stretch from the
first to the last chunk, `putChunk` writes into, before or after it, and
`deleteChunk` removes it with one delimiter beside it.
-/

namespace Lingo

/-- Where a text goes relative to a chunk. -/
inductive PutMode where
  | into | after | before
  deriving DecidableEq, Repr, Inhabited

def PutMode.ofCode? (code : Int32) : Option PutMode :=
  if code == 1 then some .into
  else if code == 2 then some .after
  else if code == 3 then some .before
  else none

/-- Positions of the chunks that a request selects among `count`. A first chunk
below 1 is the first one; a last chunk of 0 is the first one requested, and a
negative one, or one past the end, is the last there is. -/
def chunkRange (count : Nat) (first last : Int32) : Option (Nat × Nat) :=
  let first := (max first.toInt 1).toNat
  let last :=
    if last == 0 then first
    else if last.toInt < 0 then count
    else min last.toInt.toNat count
  if count < first || last < first then none else some (first - 1, last - 1)

/-- The stretch that a request selects. -/
def chunkSpan? (spans : List Span) (first last : Int32) : Option Span :=
  match chunkRange spans.length first last with
  | some (a, b) =>
    match spans[a]?, spans[b]? with
    | some x, some y => some (x.through y)
    | _, _ => none
  | none => none

/-- The text of a request; empty when it selects nothing. -/
def chunkText (cs : List Char) (kind : ChunkKind) (first last : Int32) (delimiter : Char) :
    List Char :=
  match chunkSpan? (chunkSpans cs kind delimiter) first last with
  | some span => span.slice cs
  | none => []

/-- The text of one chunk; empty when there is none at the position. -/
def chunkAt (cs : List Char) (kind : ChunkKind) (index : Int32) (delimiter : Char) : List Char :=
  if index.toInt < 1 then [] else chunkText cs kind index index delimiter

/-- The text of the last chunk; empty when there is none. -/
def lastChunk (cs : List Char) (kind : ChunkKind) (delimiter : Char) : List Char :=
  match (chunkSpans cs kind delimiter).getLast? with
  | some span => span.slice cs
  | none => []

/-- Puts a value past the last of `count` chunks: items and lines are first
padded with delimiters up to the position, and a word is set off by a space. -/
def putPastEnd (cs : List Char) (kind : ChunkKind) (count : Nat) (first : Int32)
    (value : List Char) (delimiter : Char) : List Char :=
  let missing := (max first.toInt 1).toNat - max count 1
  let pad :=
    match kind with
    | .item => (List.replicate missing [delimiter]).flatten
    | .line => (List.replicate missing (lineDelimiter cs)).flatten
    | .word => if cs.isEmpty || cs.getLast?.any Text.isBlank then [] else [' ']
    | .char => []
  cs ++ pad ++ value

/-- Puts a value into, before or after the stretch that a request selects, or
past the end when it selects nothing. -/
def putChunk (cs : List Char) (kind : ChunkKind) (first last : Int32) (mode : PutMode)
    (value : List Char) (delimiter : Char) : List Char :=
  let spans := chunkSpans cs kind delimiter
  match chunkSpan? spans first last with
  | none => putPastEnd cs kind spans.length first value delimiter
  | some span =>
    match mode with
    | .into => cs.take span.start ++ value ++ cs.drop span.stop
    | .before => cs.take span.start ++ value ++ cs.drop span.start
    | .after => cs.take span.stop ++ value ++ cs.drop span.stop

/-- What is removed with chunks `a` to `b`: for all kinds but characters also
what separates them from the next chunk, else from the one before, else
everything up to the end. -/
def deletedSpan (spans : List Span) (length : Nat) (kind : ChunkKind) (a b : Nat) (span : Span) :
    Span :=
  if kind == .char then span
  else
    match spans[b + 1]? with
    | some next => ⟨span.start, next.start⟩
    | none =>
      match a with
      | 0 => ⟨span.start, length⟩
      | a + 1 => ⟨(spans[a]?.map Span.stop).getD span.start, span.stop⟩

/-- Removes the stretch that a request selects. -/
def deleteChunk (cs : List Char) (kind : ChunkKind) (first last : Int32) (delimiter : Char) :
    List Char :=
  let spans := chunkSpans cs kind delimiter
  match chunkRange spans.length first last, chunkSpan? spans first last with
  | some (a, b), some span =>
    let gone := deletedSpan spans cs.length kind a b span
    cs.take gone.start ++ cs.drop gone.stop
  | _, _ => cs

end Lingo
