import Mathlib.Algebra.Order.Ring.Nat
import Mathlib.Data.Nat.SuccPred
import Mathlib.Data.String.Basic
import Lingo.Chunk.Bytes
import Lingo.Proofs.Addressing

/-!
# Slices of texts

Chunks looked for in UTF-8 are the chunks found among characters, at the bytes where their
characters are. Every slice that reading, putting or deleting takes therefore exists, and the
results are the same.

* `slice?_byteOffset`: between characters that are in order there is a slice;
* `byteSpans_eq`: the stretches of bytes are those of the characters;
* `chunk_slices`: where the stretches are, and what each operation makes of their slices.
-/

namespace Lingo

open Utf8 (slice? charIndices matchIndices between chunkText? lastChunk? putChunk? deletedSpan?
  deleteChunk?)

variable {cs rest delimiter : List Char} {c d : Char} {pos i j : Nat}

/-! ## Positions of characters -/

theorem foldl_utf8Size (cs : List Char) (n : Nat) :
    cs.foldl (fun n c => n + c.utf8Size) n = n + String.utf8Len cs := by
  induction cs generalizing n with
  | nil => rfl
  | cons c cs ih =>
    rw [List.foldl_cons, ih, String.utf8Len_cons]
    omega

theorem byteOffset_eq (cs : List Char) (i : Nat) :
    byteOffset cs i = String.utf8Len (cs.take i) := by
  rw [byteOffset, foldl_utf8Size, Nat.zero_add]

@[simp] theorem byteOffset_zero (cs : List Char) : byteOffset cs 0 = 0 :=
  rfl

theorem byteOffset_of_length_le (h : cs.length ≤ i) :
    byteOffset cs i = (String.ofList cs).utf8ByteSize := by
  rw [byteOffset_eq, List.take_of_length_le h, String.utf8ByteSize_ofList]

theorem byteOffset_le (h : i ≤ j) : byteOffset cs i ≤ byteOffset cs j := by
  rw [byteOffset_eq, byteOffset_eq]
  exact String.utf8Len_le_of_prefix (List.take_prefix_take_left h)

theorem byteOffset_add (h : cs.drop pos = delimiter ++ rest) :
    byteOffset cs (pos + delimiter.length) = byteOffset cs pos + String.utf8Len delimiter := by
  rw [byteOffset_eq, byteOffset_eq, List.take_add, h, List.take_left, String.utf8Len_append]

theorem byteOffset_succ (h : cs.drop pos = c :: rest) :
    byteOffset cs (pos + 1) = byteOffset cs pos + c.utf8Size := by
  have one : String.utf8Len [c] = c.utf8Size := by simp
  have split : cs.drop pos = [c] ++ rest := h
  rw [← one]
  exact byteOffset_add split

theorem drop_succ (h : cs.drop pos = c :: rest) : cs.drop (pos + 1) = rest := by
  rw [← List.drop_drop, h]
  rfl

theorem byteOffset_lt (h : i < j) (hj : j ≤ cs.length) : byteOffset cs i < byteOffset cs j := by
  have next := byteOffset_succ (List.drop_eq_getElem_cons (Nat.lt_of_lt_of_le h hj))
  have width := Char.utf8Size_pos cs[i]
  have le : byteOffset cs (i + 1) ≤ byteOffset cs j := byteOffset_le h
  omega

theorem byteOffset_inj (hi : i ≤ cs.length) (hj : j ≤ cs.length) :
    byteOffset cs i = byteOffset cs j ↔ i = j := by
  refine ⟨fun same => ?_, congrArg (byteOffset cs)⟩
  rcases Nat.lt_trichotomy i j with less | equal | more
  · exact absurd same (Nat.ne_of_lt (byteOffset_lt less hj))
  · exact equal
  · exact absurd same.symm (Nat.ne_of_lt (byteOffset_lt more hi))

theorem isValid_byteOffset (cs : List Char) (i : Nat) :
    String.Pos.Raw.IsValid (String.ofList cs) ⟨byteOffset cs i⟩ :=
  String.Pos.Raw.isValid_ofList.mpr ⟨i, by rw [byteOffset_eq, String.utf8ByteSize_ofList]⟩

/-! ## Slices -/

/-- From one character to a later one there is a slice. -/
theorem slice?_byteOffset (h : i ≤ j) :
    slice? (String.ofList cs) (byteOffset cs i) (byteOffset cs j) =
      some (String.ofList ((cs.take j).drop i)) := by
  have front : (cs.take j).take i = cs.take i := by rw [List.take_take, min_eq_left h]
  have split : cs.take j = cs.take i ++ (cs.take j).drop i := by
    rw [← front, List.take_append_drop]
  have stop : byteOffset cs j =
      String.utf8Len (cs.take i) + String.utf8Len ((cs.take j).drop i) := by
    rw [byteOffset_eq, ← String.utf8Len_append, ← split]
  have extracted := String.extract_of_valid (cs.take i) ((cs.take j).drop i) (cs.drop j)
  rw [← split, List.take_append_drop, ← stop, ← byteOffset_eq] at extracted
  have valid (k : Nat) := String.Pos.Raw.isValid_eq_true_iff.mpr (isValid_byteOffset cs k)
  rw [slice?, if_pos ⟨byteOffset_le h, valid i, valid j⟩, extracted]

theorem slice?_before (cs : List Char) (i : Nat) :
    slice? (String.ofList cs) 0 (byteOffset cs i) = some (String.ofList (cs.take i)) :=
  slice?_byteOffset (Nat.zero_le i)

theorem slice?_behind (cs : List Char) (i : Nat) :
    slice? (String.ofList cs) (byteOffset cs i) (String.ofList cs).utf8ByteSize =
      some (String.ofList (cs.drop i)) := by
  have whole : cs.length ≤ max i cs.length := Nat.le_max_right _ _
  rw [← byteOffset_of_length_le whole, slice?_byteOffset (Nat.le_max_left _ _),
    List.take_of_length_le whole]

/-! ## Scanners -/

/-- A stretch of characters as a stretch of bytes. -/
def Span.bytes (cs : List Char) (span : Span) : Nat × Nat :=
  (byteOffset cs span.start, byteOffset cs span.stop)

theorem charIndices_eq (h : cs.drop pos = rest) :
    (charIndices (byteOffset cs pos) rest).map (fun (i, c) => (i, i + c.utf8Size)) =
      (List.range rest.length).map fun i => Span.bytes cs ⟨pos + i, pos + i + 1⟩ := by
  induction rest generalizing pos with
  | nil => rfl
  | cons c rest ih =>
    have head : (byteOffset cs pos, byteOffset cs pos + c.utf8Size) =
        Span.bytes cs ⟨pos, pos + 1⟩ := by rw [← byteOffset_succ h, Span.bytes]
    rw [charIndices, List.map_cons, ← byteOffset_succ h, ih (drop_succ h), List.length_cons,
      List.range_succ_eq_map, List.map_cons, List.map_map]
    refine congrArg₂ List.cons head (List.map_congr_left fun i _ => ?_)
    show Span.bytes cs ⟨pos + 1 + i, pos + 1 + i + 1⟩ = Span.bytes cs ⟨pos + (i + 1), _⟩
    rw [Nat.add_right_comm, Nat.add_assoc]

theorem Utf8.wordSpans_nil (stop : Nat) (opened : Option Nat) :
    Utf8.wordSpans stop opened [] = (opened.map (·, stop)).toList := by
  cases opened <;> rfl

theorem Utf8.wordSpans_cons (stop : Nat) (opened : Option Nat) (i : Nat) (c : Char)
    (chars : List (Nat × Char)) :
    Utf8.wordSpans stop opened ((i, c) :: chars) =
      if Text.isBlank c then (opened.map (·, i)).toList ++ Utf8.wordSpans stop none chars
      else Utf8.wordSpans stop (some (opened.getD i)) chars := by
  cases opened with
  | none =>
    show Utf8.wordSpans stop (if Text.isBlank c then none else some i) chars = _
    split <;> rfl
  | some start => rfl

theorem byteWordSpans_eq (opened : Option Nat) (h : cs.drop pos = rest) :
    Utf8.wordSpans (String.ofList cs).utf8ByteSize (opened.map (byteOffset cs))
        (charIndices (byteOffset cs pos) rest) =
      (wordSpans opened pos rest).map (Span.bytes cs) := by
  induction rest generalizing opened pos with
  | nil =>
    rw [charIndices, Utf8.wordSpans_nil, wordSpans_nil,
      ← byteOffset_of_length_le (List.drop_eq_nil_iff.mp h)]
    cases opened <;> rfl
  | cons c rest ih =>
    have later (opened : Option Nat) := ih opened (drop_succ h)
    rw [byteOffset_succ h] at later
    rw [charIndices, Utf8.wordSpans_cons]
    cases blank : Text.isBlank c with
    | true =>
      rw [if_pos rfl, wordSpans_blank blank, List.map_append, ← later none]
      cases opened <;> rfl
    | false =>
      rw [if_neg Bool.false_ne_true, wordSpans_ink blank, ← later]
      cases opened <;> rfl

theorem between_matchIndices (start skip : Nat) (h : cs.drop pos = rest) :
    between (String.ofList delimiter).utf8ByteSize (String.ofList cs).utf8ByteSize
        (byteOffset cs start) (matchIndices delimiter (byteOffset cs pos) skip rest) =
      (splitSpans delimiter start pos skip rest).map (Span.bytes cs) := by
  induction rest generalizing start skip pos with
  | nil =>
    have stop := byteOffset_of_length_le (List.drop_eq_nil_iff.mp h)
    simp [matchIndices, between, splitSpans, Span.bytes, stop]
  | cons c rest ih =>
    have later (start skip : Nat) := ih start skip (drop_succ h)
    rw [byteOffset_succ h] at later
    cases skip with
    | succ skip => exact later start skip
    | zero =>
      rw [matchIndices, splitSpans]
      split
      · rename_i found
        obtain ⟨behind, split⟩ := List.isPrefixOf_iff_prefix.mp found
        have next := byteOffset_add (h.trans split.symm)
        rw [← String.utf8ByteSize_ofList] at next
        rw [between, ← next, later, List.map_cons]
        rfl
      · exact later start 0

theorem byteSplitSpans_eq (delimiter cs : List Char) :
    Utf8.splitSpans delimiter (String.ofList cs) =
      (splitSpans delimiter 0 0 0 cs).map (Span.bytes cs) := by
  rw [Utf8.splitSpans, String.toList_ofList]
  exact between_matchIndices 0 0 (List.drop_zero : cs.drop 0 = cs)

theorem splitSpans_stop {start skip : Nat} :
    ∀ x ∈ splitSpans delimiter start pos skip rest, x.stop ≤ pos + rest.length := by
  fun_induction splitSpans delimiter start pos skip rest with grind

/-- A stretch within a text is empty in bytes if it is in characters. -/
theorem byteDropEmptyLast_eq {spans : List Span} (ordered : Ordered spans)
    (within : ∀ x ∈ spans, x.stop ≤ cs.length) :
    Utf8.dropEmptyLast (spans.map (Span.bytes cs)) =
      (dropEmptyLast spans).map (Span.bytes cs) := by
  rw [Utf8.dropEmptyLast, dropEmptyLast, List.getLast?_map]
  cases last : spans.getLast? with
  | none => rfl
  | some x =>
    have hx := List.mem_of_getLast? last
    have empty : byteOffset cs x.start = byteOffset cs x.stop ↔ x.start = x.stop :=
      byteOffset_inj ((ordered.forward x hx).trans (within x hx)) (within x hx)
    simp only [Span.bytes, Option.map_some, Option.any_some, beq_iff_eq, empty]
    split
    · exact List.map_dropLast.symm
    · rfl

/-- The stretches of bytes are those of the characters. -/
theorem byteSpans_eq (cs : List Char) (kind : ChunkKind) (d : Char) :
    Utf8.chunkSpans (String.ofList cs) kind d = (chunkSpans cs kind d).map (Span.bytes cs) := by
  cases cs with
  | nil => rfl
  | cons c rest =>
    have nonempty : (String.ofList (c :: rest)).isEmpty = false := by simp
    have start : (c :: rest).drop 0 = c :: rest := rfl
    unfold Utf8.chunkSpans
    rw [chunkSpans_cons, nonempty, String.toList_ofList]
    cases kind with
    | char => simpa [Function.comp_def] using charIndices_eq start
    | word => exact byteWordSpans_eq none start
    | item => exact byteSplitSpans_eq [d] (c :: rest)
    | line =>
      have lines := byteSplitSpans_eq (lineDelimiter (c :: rest)) (c :: rest)
      have ordered := splitSpans_ordered (lineDelimiter_ne_nil (c :: rest)) (c :: rest)
      refine (congrArg Utf8.dropEmptyLast lines).trans (byteDropEmptyLast_eq ordered fun x hx => ?_)
      simpa using splitSpans_stop x hx

/-! ## Reading and changing -/

section

variable {kind : ChunkKind} {first last : Int32} {a b : Nat} {x y : Span}

theorem chunkText?_eq (cs : List Char) (kind : ChunkKind) (first last : Int32) (d : Char) :
    chunkText? (String.ofList cs) kind first last d =
      some (String.ofList (chunkText cs kind first last d)) := by
  rw [chunkText?, chunkText_eq, byteSpans_eq, List.length_map]
  cases range : chunkRange (chunkSpans cs kind d).length first last with
  | none => rw [chunkSpan?_none range]
  | some ends =>
    obtain ⟨a, b⟩ := ends
    obtain ⟨x, y, hx, hy⟩ := exists_ends range
    have le := (chunkSpans_ordered cs kind d).through (chunkRange_bounds range).1 hx hy
    rw [chunkSpan?_some range hx hy]
    simp only [List.getElem?_map, hx, hy, Option.map_some]
    exact slice?_byteOffset le

theorem lastChunk?_eq (cs : List Char) (kind : ChunkKind) (d : Char) :
    lastChunk? (String.ofList cs) kind d = some (String.ofList (lastChunk cs kind d)) := by
  rw [lastChunk?, lastChunk, byteSpans_eq, List.getLast?_map]
  cases last : (chunkSpans cs kind d).getLast? with
  | none => rfl
  | some x =>
    have le := (chunkSpans_ordered cs kind d).forward x (List.mem_of_getLast? last)
    exact slice?_byteOffset le

theorem putChunk?_eq (cs : List Char) (kind : ChunkKind) (first last : Int32) (mode : PutMode)
    (value : List Char) (d : Char) :
    putChunk? (String.ofList cs) kind first last mode (String.ofList value) d =
      some (String.ofList (putChunk cs kind first last mode value d)) := by
  unfold putChunk? putChunk
  simp only [byteSpans_eq, List.length_map, String.toList_ofList]
  cases range : chunkRange (chunkSpans cs kind d).length first last with
  | none => rw [chunkSpan?_none range]
  | some ends =>
    obtain ⟨a, b⟩ := ends
    obtain ⟨x, y, hx, hy⟩ := exists_ends range
    rw [chunkSpan?_some range hx hy]
    cases mode <;>
      simp [hx, hy, Span.bytes, Span.through, slice?_before, slice?_behind, String.append_assoc]

/-- What is removed is looked up in both lists alike. -/
theorem deletedSpan?_eq {spans : List Span} (hx : spans[a]? = some x) (hy : spans[b]? = some y)
    (le : a ≤ b) (cs : List Char) (kind : ChunkKind) :
    deletedSpan? (spans.map (Span.bytes cs)) (String.ofList cs).utf8ByteSize kind a b =
      some ((deletedSpan spans cs.length kind a b (x.through y)).bytes cs) := by
  have size := byteOffset_of_length_le (Nat.le_refl cs.length)
  unfold deletedSpan? deletedSpan
  simp only [List.getElem?_map, hx, hy, Option.map_some, Option.bind_eq_bind, Option.bind_some,
    beq_iff_eq]
  by_cases char : kind = .char
  · simp [char, Span.bytes, Span.through]
  · rw [if_neg char, if_neg char]
    cases behind : spans[b + 1]? with
    | some next => simp [Span.bytes, Span.through]
    | none =>
      cases a with
      | zero => simp [Span.bytes, Span.through, size]
      | succ n =>
        have within : n < spans.length :=
          Nat.lt_of_succ_lt (List.getElem?_eq_some_iff.mp hx).1
        simp [List.getElem?_eq_getElem within, Span.bytes, Span.through]

theorem deleteChunk?_eq (cs : List Char) (kind : ChunkKind) (first last : Int32) (d : Char) :
    deleteChunk? (String.ofList cs) kind first last d =
      some (String.ofList (deleteChunk cs kind first last d)) := by
  unfold deleteChunk?
  simp only [byteSpans_eq, List.length_map]
  cases range : chunkRange (chunkSpans cs kind d).length first last with
  | none => rw [deleteChunk_none range]
  | some ends =>
    obtain ⟨a, b⟩ := ends
    obtain ⟨x, y, hx, hy⟩ := exists_ends range
    have gone := deletedSpan?_eq hx hy (chunkRange_bounds range).1 cs kind
    rw [deleteChunk_some range hx hy]
    simp [gone, Span.bytes, slice?_before, slice?_behind]

end

/-- Slicing a text by its chunks is always in bounds. Looked for in UTF-8, the chunks are those
found among the characters: stretches of bytes within the text, each from a boundary of
characters to one that is no earlier, and none ends behind the start of a later one. A request
selects positions in the list of chunks, the first no later than the last. Reading the stretch
of a request or the last chunk, putting into, before or after a stretch and deleting one
therefore take slices that exist, and their results are the texts made of characters. -/
theorem chunk_slices (s value : String) (kind : ChunkKind) (d : Char) (first last : Int32)
    (mode : PutMode) :
    Utf8.chunkSpans s kind d = chunkByteSpans s.toList kind d ∧
    (∀ x ∈ Utf8.chunkSpans s kind d,
      String.Pos.Raw.IsValid s ⟨x.1⟩ ∧ String.Pos.Raw.IsValid s ⟨x.2⟩ ∧
        x.1 ≤ x.2 ∧ x.2 ≤ s.utf8ByteSize) ∧
    (Utf8.chunkSpans s kind d).Pairwise (fun x y => x.2 ≤ y.1) ∧
    (∀ count a b, chunkRange count first last = some (a, b) → a ≤ b ∧ b < count) ∧
    chunkText? s kind first last d =
      some (String.ofList (chunkText s.toList kind first last d)) ∧
    lastChunk? s kind d = some (String.ofList (lastChunk s.toList kind d)) ∧
    putChunk? s kind first last mode value d =
      some (String.ofList (putChunk s.toList kind first last mode value.toList d)) ∧
    deleteChunk? s kind first last d =
      some (String.ofList (deleteChunk s.toList kind first last d)) := by
  obtain ⟨cs, rfl⟩ : ∃ cs, s = String.ofList cs := ⟨s.toList, String.ofList_toList.symm⟩
  obtain ⟨text, rfl⟩ : ∃ text, value = String.ofList text :=
    ⟨value.toList, String.ofList_toList.symm⟩
  rw [byteSpans_eq, String.toList_ofList, String.toList_ofList]
  obtain ⟨apart, forward⟩ := chunkSpans_ordered cs kind d
  refine ⟨rfl, fun x hx => ?valid, List.pairwise_map.mpr (apart.imp byteOffset_le),
    fun count a b => chunkRange_bounds, chunkText?_eq .., lastChunk?_eq .., putChunk?_eq ..,
    deleteChunk?_eq ..⟩
  case valid =>
    obtain ⟨span, hs, rfl⟩ := List.mem_map.mp hx
    have valid := isValid_byteOffset cs
    exact ⟨valid _, valid _, byteOffset_le (forward span hs), (valid span.stop).le_rawEndPos⟩

/-- Items between delimiters of two bytes. -/
example : Utf8.chunkSpans "aéé" .item 'é' = [(0, 1), (3, 3), (5, 5)] := by
  decide +kernel

end Lingo
