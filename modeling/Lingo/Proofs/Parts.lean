import Mathlib.Data.Nat.Basic
import Mathlib.Order.Basic
import Lingo.Chunk.Edit
import Lingo.Proofs.Terminators

/-!
# Edits of items and lines

Items and lines are the pieces of a text between delimiters, but that an empty last
line is none (`Parted`). What is read of them by number (`nthChunk`, `Parted.nth`) does
not tell an empty last piece from none, and an edit of a text is an edit of its pieces:

* `Parted.put_within`, `Parted.put_past`: a piece is replaced, or added at the end;
* `Parted.delete`: pieces are taken out, whatever delimiter goes with them.
-/

namespace Lingo

/-! ## Chunks by number -/

/-- The text of a chunk, counted from 1; empty when there is none. -/
def nthChunk (cs : List Char) (kind : ChunkKind) : Nat → Char → List Char
  | 0, _ => []
  | n + 1, delimiter => (chunkTexts cs kind delimiter).getD n []

section Requests

variable {count : Nat} {first last : Int32} {spans : List Span} {a b : Nat} {x y : Span}

/-- A request for one chunk, which may be named again as the last. -/
theorem chunkRange_one {i : Int32} (hi : 1 ≤ i.toInt) (hl : last = 0 ∨ last = i) (count : Nat) :
    chunkRange count i last =
      if i.toInt.toNat ≤ count then some (i.toInt.toNat - 1, i.toInt.toNat - 1) else none := by
  unfold chunkRange
  extract_lets first' last'
  have hf : first' = i.toInt.toNat := congrArg Int.toNat (Int.max_eq_left hi)
  have same (few : first' ≤ count) : last' = first' := by
    rcases hl with rfl | rfl
    · exact if_pos (beq_self_eq_true 0)
    · simp only [last']
      split
      · rfl
      · rw [if_neg (by omega), ← hf, Nat.min_eq_left few]
  rw [← hf]
  by_cases few : first' ≤ count
  · rw [if_pos few, same few, if_neg]
    simpa using few
  · rw [if_neg few, if_pos]
    rw [decide_eq_true (Nat.lt_of_not_le few), Bool.true_or]

theorem chunkSpan?_none (range : chunkRange spans.length first last = none) :
    chunkSpan? spans first last = none := by
  unfold chunkSpan?
  rw [range]

theorem chunkSpan?_some (range : chunkRange spans.length first last = some (a, b))
    (hx : spans[a]? = some x) (hy : spans[b]? = some y) :
    chunkSpan? spans first last = some (x.through y) := by
  unfold chunkSpan?
  simp only [range, hx, hy]

/-- The chunks at the ends of a request. -/
theorem exists_ends (range : chunkRange spans.length first last = some (a, b)) :
    ∃ x y, spans[a]? = some x ∧ spans[b]? = some y := by
  obtain ⟨le, few⟩ := chunkRange_bounds range
  exact ⟨_, _, List.getElem?_eq_getElem (Nat.lt_of_le_of_lt le few), List.getElem?_eq_getElem few⟩

end Requests

variable {cs text : List Char} {kind : ChunkKind} {c : Char} {first last i : Int32} {a b : Nat}

/-- Reading at a position is reading the chunk of that number. -/
theorem chunkAt_eq (cs : List Char) (kind : ChunkKind) (i : Int32) (c : Char) :
    chunkAt cs kind i c = nthChunk cs kind i.toInt.toNat c := by
  rw [chunkAt]
  split
  · rename_i low
    rw [Int.toNat_of_nonpos (by omega)]
    rfl
  rename_i low
  have hi : 1 ≤ i.toInt := Int.not_lt.mp low
  obtain ⟨n, hn⟩ : ∃ n, i.toInt.toNat = n + 1 := ⟨i.toInt.toNat - 1, by omega⟩
  have range := chunkRange_one hi (.inr rfl) (chunkSpans cs kind c).length
  rw [hn, Nat.add_sub_cancel] at range
  rw [chunkText_eq, hn, nthChunk, chunkTexts, List.getD_eq_getElem?_getD, List.getElem?_map]
  by_cases few : n + 1 ≤ (chunkSpans cs kind c).length
  · rw [if_pos few] at range
    have found := List.getElem?_eq_getElem few
    rw [chunkSpan?_some range found found, found]
    rfl
  · rw [if_neg few] at range
    rw [chunkSpan?_none range, List.getElem?_eq_none (by omega)]
    rfl

/-! ## What the edits do -/

section Edits

variable {x y : Span}

theorem putChunk_none (mode : PutMode)
    (range : chunkRange (chunkCount cs kind c) first last = none) :
    putChunk cs kind first last mode text c =
      putPastEnd cs kind (chunkCount cs kind c) first text c := by
  unfold putChunk
  extract_lets spans
  rw [show chunkSpan? spans first last = none from chunkSpan?_none range]
  rfl

theorem putChunk_some (range : chunkRange (chunkCount cs kind c) first last = some (a, b))
    (hx : (chunkSpans cs kind c)[a]? = some x) (hy : (chunkSpans cs kind c)[b]? = some y) :
    putChunk cs kind first last .into text c = cs.take x.start ++ text ++ cs.drop y.stop := by
  unfold putChunk
  extract_lets spans
  rw [show chunkSpan? spans first last = some (x.through y) from chunkSpan?_some range hx hy]
  rfl

theorem deleteChunk_none (range : chunkRange (chunkCount cs kind c) first last = none) :
    deleteChunk cs kind first last c = cs := by
  unfold deleteChunk
  extract_lets spans
  rw [show chunkRange spans.length first last = none from range]

theorem deleteChunk_some (range : chunkRange (chunkCount cs kind c) first last = some (a, b))
    (hx : (chunkSpans cs kind c)[a]? = some x) (hy : (chunkSpans cs kind c)[b]? = some y) :
    deleteChunk cs kind first last c =
      let gone := deletedSpan (chunkSpans cs kind c) cs.length kind a b (x.through y)
      cs.take gone.start ++ cs.drop gone.stop := by
  unfold deleteChunk
  extract_lets spans
  rw [show chunkRange spans.length first last = some (a, b) from range,
    show chunkSpan? spans first last = some (x.through y) from chunkSpan?_some range hx hy]

/-- What is deleted with items, lines or words: everything up to the next one; or from
the end of the one before; or everything. -/
theorem deleteChunk_cases (hk : kind ≠ .char)
    (range : chunkRange (chunkCount cs kind c) first last = some (a, b)) :
    ∃ x y, (chunkSpans cs kind c)[a]? = some x ∧ (chunkSpans cs kind c)[b]? = some y ∧
      ((∃ next, (chunkSpans cs kind c)[b + 1]? = some next ∧
          deleteChunk cs kind first last c = cs.take x.start ++ cs.drop next.start) ∨
        (chunkCount cs kind c = b + 1 ∧ a = 0 ∧
          deleteChunk cs kind first last c = cs.take x.start) ∨
        (chunkCount cs kind c = b + 1 ∧ ∃ n before, a = n + 1 ∧
          (chunkSpans cs kind c)[n]? = some before ∧
          deleteChunk cs kind first last c = cs.take before.stop ++ cs.drop y.stop)) := by
  obtain ⟨x, y, hx, hy⟩ := exists_ends range
  obtain ⟨le, few⟩ := chunkRange_bounds range
  have kind_ne : (kind == .char) = false := beq_eq_false_iff_ne.mpr hk
  refine ⟨x, y, hx, hy, ?_⟩
  rw [deleteChunk_some range hx hy]
  simp only [deletedSpan, kind_ne, Bool.false_eq_true, if_false]
  cases behind : (chunkSpans cs kind c)[b + 1]? with
  | some next => exact .inl ⟨next, rfl, rfl⟩
  | none =>
    have all : chunkCount cs kind c = b + 1 :=
      Nat.le_antisymm (List.getElem?_eq_none_iff.mp behind) few
    refine .inr ?_
    cases a with
    | zero =>
      refine .inl ⟨all, rfl, ?_⟩
      simp only [Span.through, List.drop_length, List.append_nil]
    | succ n =>
      obtain ⟨before, found⟩ : ∃ before, (chunkSpans cs kind c)[n]? = some before :=
        ⟨_, List.getElem?_eq_getElem (Nat.lt_trans (Nat.lt_of_succ_le le) few)⟩
      refine .inr ⟨all, n, before, rfl, found, ?_⟩
      simp only [found, Option.map_some, Option.getD_some, Span.through]

end Edits

/-! ## Items and lines as pieces -/

/-- Items or lines are pieces between delimiters, all of them or all but an empty last
one. The empty text is one piece; else a piece that is no chunk stands behind a line
terminator at the end of the text. -/
structure Parted (cs : List Char) (kind : ChunkKind) (c : Char) (d : List Char)
    (pieces : List (List Char)) : Prop where
  delimits : kind = .item ∧ d = [c] ∨ kind = .line ∧ d = lineDelimiter cs
  split : Splits d cs pieces
  spans : chunkSpans cs kind c = (layOut d.length 0 pieces).take (chunkCount cs kind c)
  rest : pieces.drop (chunkCount cs kind c) = [] ∨ pieces.drop (chunkCount cs kind c) = [[]]
  length : pieces.length =
    max (chunkCount cs kind c) 1 + if kind = .line ∧ d <:+ cs then 1 else 0

theorem Splits.eq_singleton {d : List Char} {pieces : List (List Char)} (h : Splits d cs pieces)
    (absent : ¬ d <:+: cs) : pieces = [cs] := by
  cases h with
  | last => rfl
  | next =>
    refine absurd ?_ absent
    exact (List.prefix_append _ _).isInfix.trans (List.suffix_append _ _).isInfix

/-- The empty text is one empty piece and no chunk. -/
theorem parted_nil {d : List Char} (hd : d ≠ [])
    (delimits : kind = .item ∧ d = [c] ∨ kind = .line ∧ d = lineDelimiter []) :
    Parted [] kind c d [[]] := by
  refine ⟨delimits, .last (mt List.infix_nil.mp hd), rfl, .inr rfl, ?_⟩
  rw [if_neg fun ends => hd (List.suffix_nil.mp ends.2)]
  rfl

theorem parted_item {pieces : List (List Char)} (split : Splits [c] cs pieces) :
    Parted cs .item c [c] pieces := by
  rcases eq_or_ne cs [] with rfl | some
  · rw [split.eq_singleton (mt List.infix_nil.mp (List.cons_ne_nil c []))]
    exact parted_nil (List.cons_ne_nil c []) (.inl ⟨rfl, rfl⟩)
  have spans : chunkSpans cs .item c = layOut [c].length 0 pieces := chunkSpans_item some split
  have count : chunkCount cs .item c = pieces.length := by rw [chunkCount, spans, length_layOut]
  refine ⟨.inl ⟨rfl, rfl⟩, split, ?_, .inl ?_, ?_⟩ <;> rw [count]
  · rw [spans, List.take_of_length_le (Nat.le_of_eq (length_layOut ..))]
  · rw [List.drop_length]
  · rw [if_neg (by simp), Nat.add_zero]
    exact (Nat.max_eq_left (List.length_pos_iff.mpr split.ne_nil)).symm

theorem parted_line {pieces : List (List Char)} (split : Splits (lineDelimiter cs) cs pieces) :
    Parted cs .line c (lineDelimiter cs) pieces := by
  rcases eq_or_ne cs [] with rfl | some
  · rw [split.eq_singleton (mt List.infix_nil.mp (lineDelimiter_ne_nil []))]
    exact parted_nil (lineDelimiter_ne_nil []) (.inr ⟨rfl, rfl⟩)
  obtain ⟨lines, last, rfl⟩ := split.exists_concat
  obtain ⟨s, laid⟩ := layOut_concat (lineDelimiter cs).length 0 lines last
  have spans : chunkSpans cs .line c =
      if last.length = 0 then layOut (lineDelimiter cs).length 0 lines
      else layOut (lineDelimiter cs).length 0 lines ++ [⟨s, s + last.length⟩] := by
    rw [← dropEmptyLast_concat, ← laid, ← split.spans (lineDelimiter_ne_nil cs) 0]
    obtain ⟨x, xs, rfl⟩ := List.exists_cons_of_ne_nil some
    exact chunkSpans_cons ..
  have ends : last = [] ↔ lineDelimiter cs <:+ cs := by
    have := split.getLast_eq_nil_iff (lineDelimiter_apart cs)
    rwa [List.getLast_concat, or_iff_right some] at this
  rcases eq_or_ne last [] with rfl | some_last
  · have several : 1 ≤ lines.length := by
      refine List.length_pos_iff.mpr ?_
      rintro rfl
      exact some (split.joined.symm.trans List.intercalate_singleton)
    rw [List.length_nil, if_pos rfl] at spans
    have count : chunkCount cs .line c = lines.length := by rw [chunkCount, spans, length_layOut]
    refine ⟨.inr ⟨rfl, rfl⟩, split, ?_, .inr ?_, ?_⟩ <;> rw [count]
    · rw [spans, laid, List.take_left' (length_layOut ..)]
    · rw [List.drop_left]
    · rw [if_pos ⟨rfl, ends.mp rfl⟩, Nat.max_eq_left several, List.length_append]
      rfl
  · rw [if_neg (mt List.length_eq_zero_iff.mp some_last), ← laid] at spans
    have count : chunkCount cs .line c = (lines ++ [last]).length := by
      rw [chunkCount, spans, length_layOut]
    refine ⟨.inr ⟨rfl, rfl⟩, split, ?_, .inl ?_, ?_⟩ <;> rw [count]
    · rw [spans, List.take_of_length_le (Nat.le_of_eq (length_layOut ..))]
    · rw [List.drop_length]
    · rw [if_neg fun both => some_last (ends.mpr both.2), Nat.add_zero]
      exact (Nat.max_eq_left (List.length_pos_iff.mpr split.ne_nil)).symm

/-- Every text has its items and its lines. -/
theorem exists_parted (hk : kind = .item ∨ kind = .line) (cs : List Char) (c : Char) :
    ∃ d pieces, Parted cs kind c d pieces := by
  rcases hk with rfl | rfl
  · obtain ⟨pieces, split⟩ := exists_splits (List.cons_ne_nil c []) cs
    exact ⟨_, pieces, parted_item split⟩
  · obtain ⟨pieces, split⟩ := exists_splits (lineDelimiter_ne_nil cs) cs
    exact ⟨_, pieces, parted_line split⟩

namespace Parted

variable {d : List Char} {pieces : List (List Char)} (h : Parted cs kind c d pieces)
include h

theorem not_char : kind ≠ .char := by
  rintro rfl
  obtain ⟨kind_eq, -⟩ | ⟨kind_eq, -⟩ := h.delimits <;> cases kind_eq

theorem count_le : chunkCount cs kind c ≤ pieces.length := by
  have length := congrArg List.length h.spans
  rw [List.length_take, length_layOut] at length
  exact Nat.le_of_eq length |>.trans (Nat.min_le_right _ _)

/-- A text without chunks is empty. -/
theorem eq_nil (none : chunkCount cs kind c = 0) : pieces = [[]] ∧ cs = [] := by
  have rest := h.rest
  rw [none, List.drop_zero] at rest
  obtain rfl := rest.resolve_left h.split.ne_nil
  exact ⟨rfl, h.split.joined.symm.trans List.intercalate_singleton⟩

theorem span {n : Nat} {x : Span} (hx : (chunkSpans cs kind c)[n]? = some x) :
    (layOut d.length 0 pieces)[n]? = some x := by
  rw [h.spans, List.getElem?_take] at hx
  exact (Option.ite_none_right_eq_some.mp hx).2

theorem texts : chunkTexts cs kind c = pieces.take (chunkCount cs kind c) := by
  have slices := @slice_layOut d pieces
  rw [h.split.joined] at slices
  rw [chunkTexts, h.spans, List.map_take, slices]

/-- The chunks read as the pieces. -/
theorem nth (n : Nat) : nthChunk cs kind (n + 1) c = pieces.getD n [] := by
  rw [nthChunk, h.texts, List.getD_eq_getElem?_getD, List.getD_eq_getElem?_getD,
    List.getElem?_take]
  split
  · rfl
  · rename_i past
    obtain ⟨k, rfl⟩ := Nat.exists_eq_add_of_le (Nat.le_of_not_lt past)
    rw [← List.getElem?_drop]
    rcases h.rest with rest | rest <;> rw [rest]
    · rfl
    · cases k <;> rfl

/-- A chunk that is put into is replaced. -/
theorem put_within (hi : 1 ≤ i.toInt) (few : i.toInt.toNat ≤ chunkCount cs kind c)
    (text : List Char) :
    putChunk cs kind i 0 .into text c = d.intercalate (pieces.set (i.toInt.toNat - 1) text) := by
  have range : chunkRange (chunkCount cs kind c) i 0 =
      some (i.toInt.toNat - 1, i.toInt.toNat - 1) :=
    (chunkRange_one hi (.inl rfl) _).trans (if_pos few)
  obtain ⟨x, -, hx, -⟩ := exists_ends range
  rw [putChunk_some range hx hx, ← replace_piece (h.span hx), h.split.joined]

/-- What is put past the end stands behind delimiters. -/
theorem putPastEnd_eq (first : Int32) (text : List Char) :
    putPastEnd cs kind (chunkCount cs kind c) first text c =
      cs ++ (List.replicate ((max first.toInt 1).toNat - max (chunkCount cs kind c) 1) d).flatten ++
        text := by
  obtain ⟨rfl, rfl⟩ | ⟨rfl, rfl⟩ := h.delimits <;> rfl

/-- A chunk put past the end is a new piece, but one further behind a terminator that the
text ends with. -/
theorem put_past (hi : 1 ≤ i.toInt) (past : chunkCount cs kind c < i.toInt.toNat)
    (text : List Char) :
    putChunk cs kind i 0 .into text c =
      d.intercalate (assignPiece pieces
        (i.toInt.toNat - 1 + if kind = .line ∧ d <:+ cs then 1 else 0) text) := by
  have range := (chunkRange_one hi (.inl rfl) (chunkCount cs kind c)).trans
    (if_neg (Nat.not_le.mpr past))
  have length := h.length
  rw [putChunk_none _ range, h.putPastEnd_eq, Int.max_eq_left hi]
  generalize (if kind = .line ∧ d <:+ cs then 1 else 0) = gap at length ⊢
  rcases Nat.lt_or_ge (i.toInt.toNat - 1 + gap) pieces.length with within | behind
  -- Only in the empty text is what is past the end not behind all pieces.
  · obtain ⟨rfl, rfl⟩ := h.eq_nil (by omega)
    have one : i.toInt.toNat = 1 := by omega
    rw [List.length_singleton] at length
    obtain rfl : gap = 0 := by omega
    rw [one, Nat.sub_eq_zero_of_le (Nat.le_max_right _ _)]
    exact List.intercalate_singleton.symm
  · rw [intercalate_assignPiece h.split.ne_nil behind, h.split.joined, length]
    congr 4
    omega

/-- What is put into a chunk is assigned to a piece. -/
theorem put (hi : 1 ≤ i.toInt) (text : List Char) :
    putChunk cs kind i 0 .into text c =
      d.intercalate (assignPiece pieces (i.toInt.toNat - 1 +
        if chunkCount cs kind c < i.toInt.toNat ∧ kind = .line ∧ d <:+ cs then 1 else 0) text) := by
  rcases Nat.lt_or_ge (chunkCount cs kind c) i.toInt.toNat with past | few
  · simp only [h.put_past hi past, past, true_and]
  · have within : i.toInt.toNat - 1 < pieces.length := by
      have := h.count_le
      omega
    rw [if_neg fun both => Nat.not_lt.mpr few both.1, Nat.add_zero, assignPiece_within within,
      h.put_within hi few]

/-- The chunks of a request are taken out. -/
theorem delete (range : chunkRange (chunkCount cs kind c) first last = some (a, b)) :
    deleteChunk cs kind first last c = d.intercalate (pieces.take a ++ pieces.drop (b + 1)) := by
  obtain ⟨x, y, hx, hy, cut⟩ := deleteChunk_cases h.not_char range
  have start := cut_start (h.span hx)
  have stop := cut_stop (h.span hy)
  rw [h.split.joined] at start stop
  obtain ⟨next, hn, deleted⟩ | ⟨all, rfl, deleted⟩ | ⟨all, n, before, rfl, hb, deleted⟩ := cut
  · have behind := (cut_start (h.span hn)).2
    rw [h.split.joined] at behind
    have some : pieces.drop (b + 1) ≠ [] := by
      rw [← List.length_pos_iff, List.length_drop, ← length_layOut d.length 0 pieces]
      exact Nat.sub_pos_of_lt (List.getElem?_eq_some_iff.mp (h.span hn)).1
    rw [deleted, start.1, behind, intercalate_append _ some]
  · rw [deleted, start.1, ← all]
    rcases h.rest with rest | rest <;> rw [rest] <;> rfl
  · have ahead := (cut_stop (h.span hb)).1
    rw [h.split.joined] at ahead
    have some : pieces.take (n + 1) ≠ [] := by
      have within := (List.getElem?_eq_some_iff.mp (h.span hb)).1
      rw [length_layOut] at within
      rw [← List.length_pos_iff, List.length_take]
      exact Nat.lt_min.mpr ⟨Nat.succ_pos n, Nat.zero_lt_of_lt within⟩
    rw [deleted, ahead, stop.2, intercalate_append_behind some]

end Parted

end Lingo
