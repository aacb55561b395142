import Lingo.Chunk.Edit

/-!
# Chunks in UTF-8

The chunks of a text as stretches of its bytes, and reading and changing them by taking slices.
A slice need not exist: its ends have to be in order and on boundaries of characters, and a
stretch looked up in the list of chunks has to be there. Where one of this fails there is no
result.
-/

namespace Lingo.Utf8

/-- The bytes from position `start` up to, not including, position `stop`; none if the
positions are out of order, past the end or inside a character. -/
def slice? (s : String) (start stop : Nat) : Option String :=
  if start ≤ stop ∧ String.Pos.Raw.isValid s ⟨start⟩ ∧ String.Pos.Raw.isValid s ⟨stop⟩ then
    some (String.Pos.Raw.extract s ⟨start⟩ ⟨stop⟩)
  else none

/-- Characters with the positions of their first bytes; `pos` is that of the first one. -/
def charIndices (pos : Nat) : List Char → List (Nat × Char)
  | [] => []
  | c :: rest => (pos, c) :: charIndices (pos + c.utf8Size) rest

/-- Positions of the occurrences of a delimiter, found from left to right. The characters left
begin at `pos`, and `skip` of them belong to an occurrence already found. -/
def matchIndices (delimiter : List Char) : Nat → Nat → List Char → List Nat
  | _, _, [] => []
  | pos, 0, c :: rest =>
    if delimiter.isPrefixOf (c :: rest) then
      pos :: matchIndices delimiter (pos + c.utf8Size) (delimiter.length - 1) rest
    else matchIndices delimiter (pos + c.utf8Size) 0 rest
  | pos, skip + 1, c :: rest => matchIndices delimiter (pos + c.utf8Size) skip rest

/-- Stretches from `start` to `stop` between delimiters of a width. -/
def between (width stop : Nat) : Nat → List Nat → List (Nat × Nat)
  | start, [] => [(start, stop)]
  | start, i :: found => (start, i) :: between width stop (i + width) found

/-- Stretches between the occurrences of a delimiter. -/
def splitSpans (delimiter : List Char) (s : String) : List (Nat × Nat) :=
  between (String.ofList delimiter).utf8ByteSize s.utf8ByteSize 0
    (matchIndices delimiter 0 0 s.toList)

/-- Runs of characters without blanks, the last one up to `stop`; where the current one began,
if there is one. -/
def wordSpans (stop : Nat) : Option Nat → List (Nat × Char) → List (Nat × Nat)
  | none, [] => []
  | some start, [] => [(start, stop)]
  | none, (i, c) :: rest => wordSpans stop (if Text.isBlank c then none else some i) rest
  | some start, (i, c) :: rest =>
    if Text.isBlank c then (start, i) :: wordSpans stop none rest
    else wordSpans stop (some start) rest

/-- Drops a last stretch that is empty. -/
def dropEmptyLast (spans : List (Nat × Nat)) : List (Nat × Nat) :=
  if spans.getLast?.any fun (start, stop) => start == stop then spans.dropLast else spans

/-- The chunks of a text. -/
def chunkSpans (s : String) (kind : ChunkKind) (delimiter : Char) : List (Nat × Nat) :=
  if s.isEmpty then []
  else
    match kind with
    | .char => (charIndices 0 s.toList).map fun (i, c) => (i, i + c.utf8Size)
    | .word => wordSpans s.utf8ByteSize none (charIndices 0 s.toList)
    | .line => dropEmptyLast (splitSpans (lineDelimiter s.toList) s)
    | .item => splitSpans [delimiter] s

/-- The text of a request: from the start of its first chunk to the end of its last one. -/
def chunkText? (s : String) (kind : ChunkKind) (first last : Int32) (delimiter : Char) :
    Option String :=
  let spans := chunkSpans s kind delimiter
  match chunkRange spans.length first last with
  | some (a, b) => do slice? s (← spans[a]?).1 (← spans[b]?).2
  | none => some ""

/-- The text of the last chunk. -/
def lastChunk? (s : String) (kind : ChunkKind) (delimiter : Char) : Option String :=
  match (chunkSpans s kind delimiter).getLast? with
  | some (start, stop) => slice? s start stop
  | none => some ""

/-- Puts a value into, before or after the stretch that a request selects. Nothing is sliced
where it selects nothing. -/
def putChunk? (s : String) (kind : ChunkKind) (first last : Int32) (mode : PutMode)
    (value : String) (delimiter : Char) : Option String :=
  let spans := chunkSpans s kind delimiter
  match chunkRange spans.length first last with
  | none =>
    some (String.ofList (putPastEnd s.toList kind spans.length first value.toList delimiter))
  | some (a, b) => do
    let start := (← spans[a]?).1
    let stop := (← spans[b]?).2
    match mode with
    | .into => return (← slice? s 0 start) ++ value ++ (← slice? s stop s.utf8ByteSize)
    | .before => return (← slice? s 0 start) ++ value ++ (← slice? s start s.utf8ByteSize)
    | .after => return (← slice? s 0 stop) ++ value ++ (← slice? s stop s.utf8ByteSize)

/-- The ends of what is removed with chunks `a` to `b`. -/
def deletedSpan? (spans : List (Nat × Nat)) (length : Nat) (kind : ChunkKind) (a b : Nat) :
    Option (Nat × Nat) := do
  let start := (← spans[a]?).1
  let stop := (← spans[b]?).2
  if kind = .char then return (start, stop)
  else
    match spans[b + 1]? with
    | some next => return (start, next.1)
    | none =>
      if 0 < a then return ((← spans[a - 1]?).2, stop)
      else return (start, length)

/-- Removes the stretch that a request selects. -/
def deleteChunk? (s : String) (kind : ChunkKind) (first last : Int32) (delimiter : Char) :
    Option String :=
  let spans := chunkSpans s kind delimiter
  match chunkRange spans.length first last with
  | none => some s
  | some (a, b) => do
    let (start, stop) ← deletedSpan? spans s.utf8ByteSize kind a b
    return (← slice? s 0 start) ++ (← slice? s stop s.utf8ByteSize)

end Lingo.Utf8
