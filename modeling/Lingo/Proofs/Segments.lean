import Lingo.Chunk.Edit
import Lingo.Proofs.Splitting

/-!
# What the chunks of a text are

The chunks of each kind, told without reference to how they are looked for:

* `mem_wordSpans`: words are the longest runs without blanks (`InkRun`);
* `chunkTexts_item`, `chunkTexts_line`: items and lines are the pieces between
  delimiters (`Splits`), but an empty last line is none;
* `chunkText_item`: a request for items yields them joined;
* `chunks_segment`: all of it together.
-/

namespace Lingo

/-- The texts of the chunks. -/
def chunkTexts (cs : List Char) (kind : ChunkKind) (delimiter : Char) : List (List Char) :=
  (chunkSpans cs kind delimiter).map (·.slice cs)

theorem chunkSpans_nil (kind : ChunkKind) (delimiter : Char) : chunkSpans [] kind delimiter = [] :=
  rfl

theorem chunkSpans_cons (c : Char) (cs : List Char) (kind : ChunkKind) (delimiter : Char) :
    chunkSpans (c :: cs) kind delimiter =
      match kind with
      | .char => (List.range (c :: cs).length).map fun i => ⟨i, i + 1⟩
      | .word => wordSpans none 0 (c :: cs)
      | .line => dropEmptyLast (splitSpans (lineDelimiter (c :: cs)) 0 0 0 (c :: cs))
      | .item => splitSpans [delimiter] 0 0 0 (c :: cs) :=
  rfl

/-! ## Characters -/

theorem chunkTexts_char (cs : List Char) (delimiter : Char) :
    chunkTexts cs .char delimiter = cs.map ([·]) := by
  cases cs with
  | nil => rfl
  | cons c cs =>
    rw [chunkTexts, chunkSpans_cons]
    apply List.ext_getElem
    · simp
    · intro i hi _
      have few : i < (c :: cs).length := by simpa using hi
      rw [List.getElem_map, List.getElem_map, List.getElem_map, List.getElem_range, Span.slice,
        List.take_add_one, List.getElem?_eq_getElem few, List.drop_append_of_le_length]
      · simp
      · rw [List.length_take_of_le (Nat.le_of_lt few)]

/-! ## Words -/

/-- There is a character at the position, and it is no blank. -/
def InkAt (cs : List Char) (i : Nat) : Prop :=
  ∃ c, cs[i]? = some c ∧ Text.isBlank c = false

/-- The stretch is not empty, has no blank, and cannot be made longer without
getting one. -/
structure InkRun (cs : List Char) (span : Span) : Prop where
  nonempty : span.start < span.stop
  ink : ∀ i, span.start ≤ i → i < span.stop → InkAt cs i
  starts : ∀ i, i + 1 = span.start → ¬ InkAt cs i
  stops : ¬ InkAt cs span.stop

namespace InkRun

variable {cs : List Char} {s t : Span} {i : Nat}

theorem start_le (hs : InkRun cs s) (ht : InkRun cs t) (is : i < s.stop) (ti : t.start ≤ i) :
    t.start ≤ s.start := by
  by_contra longer
  refine ht.starts (t.start - 1) (by omega) (hs.ink _ ?_ ?_) <;> omega

theorem stop_le (hs : InkRun cs s) (ht : InkRun cs t) (si : s.start ≤ i) (it : i < t.stop) :
    s.stop ≤ t.stop := by
  by_contra longer
  refine ht.stops (hs.ink _ ?_ ?_) <;> omega

/-- Runs that meet are the same. -/
theorem eq_of_meet (hs : InkRun cs s) (ht : InkRun cs t) (si : s.start ≤ i) (is : i < s.stop)
    (ti : t.start ≤ i) (it : i < t.stop) : s = t := by
  have start := Nat.le_antisymm (start_le ht hs it si) (start_le hs ht is ti)
  have stop := Nat.le_antisymm (stop_le hs ht si it) (stop_le ht hs ti is)
  cases s
  cases t
  exact Span.mk.injEq .. ▸ ⟨start, stop⟩

end InkRun

theorem inkAt_append (before rest : List Char) (c : Char) :
    InkAt (before ++ c :: rest) before.length ↔ Text.isBlank c = false := by
  unfold InkAt
  rw [List.getElem?_append_right (Nat.le_refl _), Nat.sub_self, List.getElem?_cons_zero]
  exact ⟨fun ⟨_, same, h⟩ => Option.some.inj same ▸ h, fun h => ⟨c, rfl, h⟩⟩

theorem not_inkAt_of_le {cs : List Char} {i : Nat} (h : cs.length ≤ i) : ¬ InkAt cs i := by
  rintro ⟨c, hc, -⟩
  rw [List.getElem?_eq_none h] at hc
  cases hc

theorem wordSpans_nil (opened : Option Nat) (pos : Nat) :
    wordSpans opened pos [] = (opened.map (⟨·, pos⟩)).toList := by
  cases opened <;> rfl

theorem wordSpans_blank {c : Char} (h : Text.isBlank c = true) (opened : Option Nat) (pos : Nat)
    (cs : List Char) :
    wordSpans opened pos (c :: cs) =
      (opened.map (⟨·, pos⟩)).toList ++ wordSpans none (pos + 1) cs := by
  cases opened with
  | none => exact congrArg (wordSpans · _ _) (if_pos h)
  | some start => exact if_pos h

theorem wordSpans_ink {c : Char} (h : Text.isBlank c = false) (opened : Option Nat) (pos : Nat)
    (cs : List Char) :
    wordSpans opened pos (c :: cs) = wordSpans (some (opened.getD pos)) (pos + 1) cs := by
  have h : ¬ Text.isBlank c = true := Bool.eq_false_iff.mp h
  cases opened with
  | none => exact congrArg (wordSpans · _ _) (if_neg h)
  | some start => exact if_neg h

/-- What the search for words has come to behind `before`: no word is open, or one
that began at `start`. -/
def Searched (cs before : List Char) : Option Nat → Prop
  | none => ∀ i, i + 1 = before.length → ¬ InkAt cs i
  | some start => start < before.length ∧ (∀ i, start ≤ i → i < before.length → InkAt cs i) ∧
      ∀ i, i + 1 = start → ¬ InkAt cs i

/-- An open word ends where there is a blank, or the text ends. The runs from its
start on are this one and those behind. -/
theorem Searched.run_iff {cs before : List Char} {start : Nat}
    (h : Searched cs before (some start)) (ends : ¬ InkAt cs before.length) (span : Span) :
    InkRun cs span ∧ start ≤ span.start ↔
      span = ⟨start, before.length⟩ ∨ InkRun cs span ∧ before.length + 1 ≤ span.start := by
  obtain ⟨nonempty, ink, starts⟩ := h
  have word : InkRun cs ⟨start, before.length⟩ := ⟨nonempty, ink, starts, ends⟩
  constructor
  · rintro ⟨run, le⟩
    rcases Nat.lt_trichotomy span.start before.length with within | here | behind
    · exact .inl (run.eq_of_meet word (Nat.le_refl _) run.nonempty le within)
    · exact absurd (here ▸ run.ink _ (Nat.le_refl _) run.nonempty) ends
    · exact .inr ⟨run, behind⟩
  · rintro (rfl | ⟨run, behind⟩)
    · exact ⟨word, Nat.le_refl _⟩
    · exact ⟨run, by omega⟩

/-- The stretches that are still to be found are the runs from the open word on. -/
theorem mem_wordSpans_from {cs before rest : List Char} {opened : Option Nat}
    (split : cs = before ++ rest) (h : Searched cs before opened) (span : Span) :
    span ∈ wordSpans opened before.length rest ↔
      InkRun cs span ∧ opened.getD before.length ≤ span.start := by
  induction rest generalizing before opened with
  | nil =>
    obtain rfl : cs = before := split.trans (List.append_nil before)
    have behind (run : InkRun cs span) : ¬ cs.length ≤ span.start := fun le =>
      not_inkAt_of_le le (run.ink _ (Nat.le_refl _) run.nonempty)
    rw [wordSpans_nil]
    cases opened with
    | none => exact ⟨(nomatch ·), fun h => absurd h.2 (behind h.1)⟩
    | some start =>
      rw [Option.map_some, Option.toList_some, List.mem_singleton, Option.getD_some,
        h.run_iff (not_inkAt_of_le (Nat.le_refl _))]
      refine ⟨Or.inl, fun found => found.resolve_right fun later => ?_⟩
      exact behind later.1 (Nat.le_of_succ_le later.2)
  | cons c rest ih =>
    have further : cs = (before ++ [c]) ++ rest := by rw [split, List.append_assoc]; rfl
    have here : InkAt cs before.length ↔ Text.isBlank c = false := by
      rw [split]
      exact inkAt_append before rest c
    have length : (before ++ [c]).length = before.length + 1 := List.length_append
    have next {opened : Option Nat} (searched : Searched cs (before ++ [c]) opened) :=
      ih further searched
    rw [length] at next
    cases hb : Text.isBlank c with
    | true =>
      have blank : ¬ InkAt cs before.length := fun ink => by rw [here.mp ink] at hb; cases hb
      have searched : Searched cs (before ++ [c]) none := by
        intro i hi
        obtain rfl : i = before.length := by omega
        exact blank
      rw [wordSpans_blank hb, List.mem_append, next searched, Option.getD_none]
      cases opened with
      | none =>
        refine ⟨fun found => ?_, fun ⟨run, le⟩ => .inr ⟨run, Nat.lt_of_le_of_ne le fun same => ?_⟩⟩
        · obtain ⟨run, le⟩ := found.resolve_left (nomatch ·)
          exact ⟨run, Nat.le_of_succ_le le⟩
        · change before.length = span.start at same
          exact blank (same ▸ run.ink _ (Nat.le_refl _) run.nonempty)
      | some start =>
        rw [Option.map_some, Option.toList_some, List.mem_singleton, Option.getD_some,
          h.run_iff blank]
    | false =>
      have ink := here.mpr hb
      have searched : Searched cs (before ++ [c]) (some (opened.getD before.length)) := by
        cases opened with
        | none =>
          refine ⟨by rw [length]; exact Nat.lt_succ_self _, fun i low high => ?_, h⟩
          change before.length ≤ i at low
          obtain rfl : i = before.length := by omega
          exact ink
        | some start =>
          obtain ⟨nonempty, inside, starts⟩ := h
          refine ⟨by rw [length]; exact Nat.lt_succ_of_lt nonempty, fun i low high => ?_, starts⟩
          rcases Nat.lt_or_ge i before.length with earlier | _
          · exact inside i low earlier
          · obtain rfl : i = before.length := by omega
            exact ink
      rw [wordSpans_ink hb, next searched, Option.getD_some]

/-- Words are the longest runs without blanks. -/
theorem mem_wordSpans (cs : List Char) (span : Span) :
    span ∈ wordSpans none 0 cs ↔ InkRun cs span := by
  have start : Searched cs [] none := fun _ h => nomatch h
  have found := mem_wordSpans_from (List.nil_append cs).symm start span
  exact found.trans ⟨And.left, fun run => ⟨run, Nat.zero_le _⟩⟩

/-- Words are found from left to right, from the open one on. -/
theorem wordSpans_ordered (opened : Option Nat) (pos : Nat) (cs : List Char)
    (h : opened.getD pos ≤ pos) :
    (wordSpans opened pos cs).Pairwise (fun a b => a.stop < b.start) ∧
      ∀ span ∈ wordSpans opened pos cs, opened.getD pos ≤ span.start := by
  induction cs generalizing opened pos with
  | nil =>
    rw [wordSpans_nil]
    cases opened with
    | none => exact ⟨.nil, fun _ h => nomatch h⟩
    | some start =>
      exact ⟨List.pairwise_singleton _ _, fun _ h => List.mem_singleton.mp h ▸ Nat.le_refl _⟩
  | cons c cs ih =>
    cases hb : Text.isBlank c with
    | true =>
      obtain ⟨ordered, behind⟩ := ih none (pos + 1) (Nat.le_refl _)
      rw [wordSpans_blank hb]
      cases opened with
      | none => exact ⟨ordered, fun span hs => Nat.le_of_succ_le (behind span hs)⟩
      | some start =>
        refine ⟨List.pairwise_cons.mpr ⟨behind, ordered⟩, fun span hs => ?_⟩
        rcases List.mem_cons.mp hs with rfl | hs
        · exact Nat.le_refl _
        · exact Nat.le_trans h (Nat.le_of_succ_le (behind span hs))
    | false =>
      rw [wordSpans_ink hb]
      exact ih (some (opened.getD pos)) (pos + 1) (Nat.le_succ_of_le h)

/-! ## Items and lines -/

theorem chunkSpans_item {cs : List Char} {pieces : List (List Char)} {c : Char} (h : cs ≠ [])
    (split : Splits [c] cs pieces) : chunkSpans cs .item c = layOut 1 0 pieces := by
  obtain ⟨x, xs, rfl⟩ := List.exists_cons_of_ne_nil h
  rw [chunkSpans_cons]
  exact split.spans (List.cons_ne_nil c []) 0

/-- The items of a text are its pieces. -/
theorem chunkTexts_item {cs : List Char} {pieces : List (List Char)} {c : Char} (h : cs ≠ [])
    (split : Splits [c] cs pieces) : chunkTexts cs .item c = pieces := by
  rw [chunkTexts, chunkSpans_item h split]
  conv_lhs => rw [← split.joined]
  exact @slice_layOut [c] pieces

theorem lineDelimiter_cases (cs : List Char) :
    lineDelimiter cs = ['\r', '\n'] ∨ lineDelimiter cs = ['\n'] ∨ lineDelimiter cs = ['\r'] := by
  unfold lineDelimiter
  split
  · exact .inl rfl
  split
  · exact .inr (.inl rfl)
  · exact .inr (.inr rfl)

theorem lineDelimiter_ne_nil (cs : List Char) : lineDelimiter cs ≠ [] := by
  rcases lineDelimiter_cases cs with h | h | h <;> rw [h] <;> exact List.cons_ne_nil _ _

/-- The end of a line terminator is not the beginning of one. -/
theorem lineDelimiter_apart (cs border : List Char) (first : border <+: lineDelimiter cs)
    (last : border <:+ lineDelimiter cs) : border = [] ∨ border = lineDelimiter cs := by
  rcases lineDelimiter_cases cs with h | h | h
  · rw [h] at first last ⊢
    obtain ⟨rest, split⟩ := first
    match border, rest, split with
    | [], _, _ => exact .inl rfl
    | [_], _, rfl => exact absurd last (by decide)
    | [_, _], [], rfl => exact .inr rfl
  all_goals
    rw [h] at first ⊢
    exact (List.prefix_cons_iff.mp first).imp_right fun ⟨rest, split, prefix_nil⟩ => by
      rw [split, List.prefix_nil.mp prefix_nil]

theorem layOut_concat (gap start : Nat) (pieces : List (List Char)) (last : List Char) :
    ∃ s, layOut gap start (pieces ++ [last]) =
      layOut gap start pieces ++ [⟨s, s + last.length⟩] := by
  induction pieces generalizing start with
  | nil => exact ⟨start, rfl⟩
  | cons piece pieces ih =>
    obtain ⟨s, split⟩ := ih (start + piece.length + gap)
    exact ⟨s, congrArg (_ :: ·) split⟩

theorem dropEmptyLast_concat (spans : List Span) (s length : Nat) :
    dropEmptyLast (spans ++ [⟨s, s + length⟩]) =
      if length = 0 then spans else spans ++ [⟨s, s + length⟩] := by
  rw [dropEmptyLast, List.getLast?_concat]
  cases length with
  | zero => exact (if_pos (beq_self_eq_true s)).trans List.dropLast_concat
  | succ n =>
    refine if_neg fun same => ?_
    have same : s = s + (n + 1) := eq_of_beq same
    omega

/-- The lines of a text are its pieces, without the last one if it is empty. -/
theorem chunkTexts_line {cs : List Char} {lines : List (List Char)} {last : List Char}
    (h : cs ≠ []) (split : Splits (lineDelimiter cs) cs (lines ++ [last])) (c : Char) :
    chunkTexts cs .line c = if last = [] then lines else lines ++ [last] := by
  have spans : chunkSpans cs .line c =
      dropEmptyLast (layOut (lineDelimiter cs).length 0 (lines ++ [last])) := by
    rw [← split.spans (lineDelimiter_ne_nil cs) 0]
    obtain ⟨x, xs, rfl⟩ := List.exists_cons_of_ne_nil h
    exact chunkSpans_cons ..
  have slices := @slice_layOut (lineDelimiter cs) (lines ++ [last])
  obtain ⟨s, laid⟩ := layOut_concat (lineDelimiter cs).length 0 lines last
  rw [split.joined, laid, List.map_append] at slices
  rw [chunkTexts, spans, laid, dropEmptyLast_concat]
  by_cases empty : last = []
  · rw [if_pos empty, if_pos (empty ▸ rfl)]
    exact (List.append_inj' slices rfl).1
  · rw [if_neg empty, if_neg (mt List.length_eq_zero_iff.mp empty), List.map_append]
    exact slices

theorem intercalate_concat_nil {delimiter : List Char} {pieces : List (List Char)}
    (h : pieces ≠ []) :
    delimiter.intercalate (pieces ++ [[]]) = delimiter.intercalate pieces ++ delimiter := by
  obtain ⟨p, ps, rfl⟩ := List.exists_cons_of_ne_nil h
  rw [List.cons_append, intercalate_cons, intercalate_cons, List.flatMap_append,
    List.flatMap_singleton, List.append_nil, List.append_assoc]

/-- The lines of a text joined are the text, without its last terminator if it ends
with one. -/
theorem lines_joined {cs : List Char} (h : cs ≠ []) (c : Char) :
    let d := lineDelimiter cs
    (∀ line ∈ chunkTexts cs .line c, ¬ d <:+: line) ∧
      (d <:+ cs → d.intercalate (chunkTexts cs .line c) ++ d = cs) ∧
      (¬ d <:+ cs → d.intercalate (chunkTexts cs .line c) = cs) := by
  intro d
  have hd : d ≠ [] := lineDelimiter_ne_nil cs
  obtain ⟨pieces, split⟩ := exists_splits hd cs
  obtain ⟨lines, last, rfl⟩ := split.exists_concat
  have ends : last = [] ↔ d <:+ cs := by
    have := split.getLast_eq_nil_iff (lineDelimiter_apart cs)
    rwa [List.getLast_concat, or_iff_right h] at this
  rw [chunkTexts_line h split]
  refine ⟨fun line hl => split.absent hd ?_, fun at_end => ?_, fun inside => ?_⟩
  · split at hl
    · exact List.mem_append_left _ hl
    · exact hl
  · obtain rfl := ends.mpr at_end
    have several : lines ≠ [] := by
      rintro rfl
      exact h (split.joined.symm.trans List.intercalate_singleton)
    rw [if_pos rfl, ← intercalate_concat_nil several]
    exact split.joined
  · rw [if_neg (mt ends.mp inside)]
    exact split.joined

/-! ## Requests -/

theorem chunkRange_bounds {count a b : Nat} {first last : Int32}
    (h : chunkRange count first last = some (a, b)) : a ≤ b ∧ b < count := by
  unfold chunkRange at h
  extract_lets first' last' at h
  have low : 1 ≤ first' := by omega
  split at h
  · cases h
  · rename_i within
    rw [Bool.or_eq_true, decide_eq_true_eq, decide_eq_true_eq, not_or] at within
    have high : last' ≤ count := by
      simp only [last']
      split
      · omega
      · split <;> omega
    obtain ⟨rfl, rfl⟩ := Prod.mk.inj (Option.some.inj h)
    omega

theorem chunkRange_all {count : Nat} (h : 0 < count) :
    chunkRange count 1 (-1) = some (0, count - 1) := by
  have last : ((-1 : Int32) == 0) = false := by decide
  have positive : ¬ count < 1 := Nat.not_lt.mpr h
  simp [chunkRange, last, positive]

theorem chunkText_eq (cs : List Char) (kind : ChunkKind) (first last : Int32) (delimiter : Char) :
    chunkText cs kind first last delimiter =
      match chunkSpan? (chunkSpans cs kind delimiter) first last with
      | some span => span.slice cs
      | none => [] := by
  rfl

/-- A request for items yields them joined. -/
theorem chunkText_item {cs : List Char} {pieces : List (List Char)} {c : Char} (h : cs ≠ [])
    (split : Splits [c] cs pieces) (first last : Int32) :
    chunkText cs .item first last c =
      match chunkRange pieces.length first last with
      | some (a, b) => [c].intercalate ((pieces.drop a).take (b + 1 - a))
      | none => [] := by
  have spans : chunkSpans cs .item c = layOut [c].length 0 pieces := chunkSpans_item h split
  rw [chunkText_eq, spans]
  unfold chunkSpan?
  rw [length_layOut]
  cases range : chunkRange pieces.length first last with
  | none => rfl
  | some selected =>
    obtain ⟨a, b⟩ := selected
    obtain ⟨le, few⟩ := chunkRange_bounds range
    have found (i : Nat) (hi : i < pieces.length) :
        ∃ x, (layOut [c].length 0 pieces)[i]? = some x :=
      ⟨_, List.getElem?_eq_getElem (by rwa [length_layOut])⟩
    obtain ⟨x, hx⟩ := found a (Nat.lt_of_le_of_lt le few)
    obtain ⟨y, hy⟩ := found b few
    have slice := slice_through pieces hx hy le
    rw [split.joined] at slice
    simp only [hx, hy, slice]

/-! ## All of it -/

/-- Characters are the characters of the text. Words are its longest runs without
blanks, in order. Items have no delimiter in them, are one more than there are
delimiters, and are the text when they are joined. Lines have no terminator in them,
and are the text when they are joined, but for the terminator it ends with. The empty
text has no chunks. A request for items yields those from its first to its last,
joined; for all of them, the text. -/
theorem chunks_segment (cs : List Char) (c : Char) :
    chunkTexts cs .char c = cs.map ([·]) ∧
    (∀ span, span ∈ chunkSpans cs .word c ↔ InkRun cs span) ∧
    (chunkSpans cs .word c).Pairwise (fun a b => a.stop < b.start) ∧
    (cs ≠ [] →
      (∀ item ∈ chunkTexts cs .item c, c ∉ item) ∧
      (chunkTexts cs .item c).length = cs.count c + 1 ∧
      [c].intercalate (chunkTexts cs .item c) = cs) ∧
    (cs ≠ [] →
      (∀ line ∈ chunkTexts cs .line c, ¬ lineDelimiter cs <:+: line) ∧
      (lineDelimiter cs <:+ cs →
        (lineDelimiter cs).intercalate (chunkTexts cs .line c) ++ lineDelimiter cs = cs) ∧
      (¬ lineDelimiter cs <:+ cs →
        (lineDelimiter cs).intercalate (chunkTexts cs .line c) = cs)) ∧
    (∀ kind, chunkSpans [] kind c = []) ∧
    (∀ first last, chunkText cs .item first last c =
      match chunkRange (chunkCount cs .item c) first last with
      | some (a, b) => [c].intercalate (((chunkTexts cs .item c).drop a).take (b + 1 - a))
      | none => []) ∧
    chunkText cs .item 1 (-1) c = cs := by
  have chars := chunkTexts_char cs c
  have empty (kind : ChunkKind) : chunkSpans [] kind c = [] := chunkSpans_nil kind c
  rcases eq_or_ne cs [] with rfl | h
  · refine ⟨chars, fun span => ⟨(nomatch ·), fun run => ?_⟩, .nil, (absurd rfl ·), (absurd rfl ·),
      empty, fun first last => ?_, by rfl⟩
    · exact absurd (run.ink _ (Nat.le_refl _) run.nonempty) (not_inkAt_of_le (Nat.zero_le _))
    · cases range : chunkRange (chunkCount [] .item c) first last with
      | none =>
        have range : chunkRange 0 first last = none := range
        rw [chunkText_eq, empty]
        unfold chunkSpan?
        rw [List.length_nil, range]
      | some selected =>
        exact absurd (chunkRange_bounds range).2 (Nat.not_lt_zero _)
  have words : chunkSpans cs .word c = wordSpans none 0 cs := by
    obtain ⟨x, xs, rfl⟩ := List.exists_cons_of_ne_nil h
    exact chunkSpans_cons ..
  obtain ⟨pieces, split⟩ := exists_splits (List.cons_ne_nil c []) cs
  have items := chunkTexts_item h split
  have count : chunkCount cs .item c = pieces.length := by
    rw [chunkCount, chunkSpans_item h split, length_layOut]
  have request := chunkText_item h split
  refine ⟨chars, words ▸ mem_wordSpans cs,
    words ▸ (wordSpans_ordered none 0 cs (Nat.le_refl 0)).1, fun _ => ?_,
    fun _ => lines_joined h c, empty, ?_, ?_⟩
  · rw [items]
    refine ⟨fun item hi found => ?_, split.count, split.joined⟩
    exact split.absent (List.cons_ne_nil c []) hi ((List.singleton_infix_iff c _).mpr found)
  · rw [items, count]
    exact request
  · have positive := List.length_pos_iff.mpr split.ne_nil
    have all : (pieces.drop 0).take (pieces.length - 1 + 1 - 0) = pieces := by
      rw [List.drop_zero, List.take_of_length_le (by omega)]
    rw [request, chunkRange_all positive]
    simp only [all, split.joined]

/-- A text with empty items, with an empty line inside and a terminator at its end. -/
theorem chunks_segment_terminated :
    let cs := ",a,\r\n\r\nb\u3000,\r\n".toList
    cs ≠ [] ∧ chunkTexts cs .word ',' = [",a,".toList, "b".toList, ",".toList] ∧
    (chunkTexts cs .item ',').length = 4 ∧
    chunkTexts cs .line ',' = [",a,".toList, [], "b\u3000,".toList] ∧
    ['\r', '\n'].intercalate (chunkTexts cs .line ',') ++ ['\r', '\n'] = cs ∧
    chunkText cs .item 2 3 ',' = ['a'] ++ [','] ++ "\r\n\r\nb\u3000".toList := by
  intro cs
  have h : cs ≠ [] := by decide
  obtain ⟨-, -, -, items, lines, -, request, -⟩ := chunks_segment cs ','
  refine ⟨h, by decide, (items h).2.1, by decide, (lines h).2.1 (by decide), ?_⟩
  rw [request 2 3]
  decide

end Lingo
