import Mathlib.Data.List.Basic
import Lingo.Proofs.Parts

/-!
# Deleting chunks

What is deleted with chunks leaves the others what they were. For items and lines this
is read off the pieces (`Parted.delete`). Words are no pieces, as there may be any blanks
between them; but where no word goes across the border of two texts, the words of both
are the words of the whole (`chunkTexts_word_append`), and a text cut where a word begins
or ends falls into such parts (`word_starts`, `word_stops`). `delete_exact` states it for
all kinds.
-/

namespace Lingo

variable {cs t xs ys : List Char} {kind : ChunkKind} {c : Char} {first last : Int32} {a b : Nat}

/-! ## Words of two texts -/

/-- No word goes up to the end. -/
def BlankEnd (cs : List Char) : Prop :=
  ∀ x, cs.getLast? = some x → Text.isBlank x = true

/-- No word goes on from before the start. -/
def BlankStart (cs : List Char) : Prop :=
  ∀ x, cs.head? = some x → Text.isBlank x = true

theorem wordSpans_append_blank {x : Char} (hx : Text.isBlank x = true) (opened : Option Nat)
    (pos : Nat) (xs ys : List Char) :
    wordSpans opened pos (xs ++ x :: ys) =
      wordSpans opened pos xs ++ wordSpans none (pos + xs.length + 1) ys := by
  induction xs generalizing opened pos with
  | nil => rw [List.nil_append, wordSpans_blank hx, wordSpans_nil]; rfl
  | cons y xs ih =>
    have behind : pos + 1 + xs.length + 1 = pos + (y :: xs).length + 1 := by
      rw [List.length_cons]
      omega
    rw [List.cons_append]
    cases hy : Text.isBlank y with
    | true => rw [wordSpans_blank hy, wordSpans_blank hy, ih, List.append_assoc, behind]
    | false => rw [wordSpans_ink hy, wordSpans_ink hy, ih, behind]

theorem wordSpans_append (gap : BlankEnd xs ∨ BlankStart ys) (pos : Nat) :
    wordSpans none pos (xs ++ ys) =
      wordSpans none pos xs ++ wordSpans none (pos + xs.length) ys := by
  rcases gap with ends | starts
  · obtain rfl | ⟨before, x, rfl⟩ := List.eq_nil_or_concat' xs
    · rfl
    have hx := ends x List.getLast?_concat
    rw [List.append_assoc, List.singleton_append, wordSpans_append_blank hx,
      wordSpans_append_blank hx, wordSpans_nil, List.length_append, List.append_assoc]
    rfl
  · cases ys with
    | nil => rw [List.append_nil, wordSpans_nil]; exact (List.append_nil _).symm
    | cons y ys =>
      have hy := starts y rfl
      rw [wordSpans_append_blank hy, wordSpans_blank hy none]
      rfl

theorem wordSpans_shift (k : Nat) (opened : Option Nat) (pos : Nat) (cs : List Char) :
    wordSpans (opened.map (k + ·)) (k + pos) cs =
      (wordSpans opened pos cs).map fun s => ⟨k + s.start, k + s.stop⟩ := by
  induction cs generalizing opened pos with
  | nil => rw [wordSpans_nil, wordSpans_nil]; cases opened <;> rfl
  | cons x cs ih =>
    cases hx : Text.isBlank x with
    | true =>
      rw [wordSpans_blank hx, wordSpans_blank hx, List.map_append, ← ih none (pos + 1)]
      cases opened <;> rfl
    | false =>
      rw [wordSpans_ink hx, wordSpans_ink hx, ← ih _ (pos + 1)]
      cases opened <;> rfl

theorem InkRun.stop_le_length {s : Span} (h : InkRun cs s) : s.stop ≤ cs.length := by
  by_contra past
  have nonempty := h.nonempty
  exact not_inkAt_of_le (by omega) (h.ink (s.stop - 1) (by omega) (by omega))

theorem chunkSpans_word (cs : List Char) (c : Char) :
    chunkSpans cs .word c = wordSpans none 0 cs := by
  cases cs <;> rfl

theorem chunkTexts_word_append (gap : BlankEnd xs ∨ BlankStart ys) :
    chunkTexts (xs ++ ys) .word c = chunkTexts xs .word c ++ chunkTexts ys .word c := by
  have shifted := wordSpans_shift xs.length none 0 ys
  rw [Option.map_none, Nat.add_zero] at shifted
  rw [chunkTexts, chunkTexts, chunkTexts, chunkSpans_word, chunkSpans_word, chunkSpans_word,
    wordSpans_append gap, Nat.zero_add, shifted, List.map_append, List.map_map]
  congr 1
  · refine List.map_congr_left fun s hs => ?_
    have within := ((mem_wordSpans xs s).mp hs).stop_le_length
    rw [Span.slice, Span.slice, List.take_append_of_le_length within]
  · refine List.map_congr_left fun s _ => ?_
    rw [Function.comp, Span.slice, Span.slice, List.take_length_add_append,
      List.drop_length_add_append]

/-! ## A text cut at a word -/

/-- The spans before a position are as many as their indices say. -/
theorem length_of_parts {as bs : List Span} {p k : Nat} (le : k ≤ (as ++ bs).length)
    (before : ∀ s ∈ as, s.start < p) (behind : ∀ s ∈ bs, p ≤ s.start)
    (h : ∀ i s, (as ++ bs)[i]? = some s → (i < k ↔ s.start < p)) : as.length = k := by
  apply Nat.le_antisymm <;> by_contra wrong
  · have hk : k < as.length := Nat.lt_of_not_le wrong
    have early := before _ (List.getElem_mem hk)
    refine Nat.lt_irrefl k ((h k as[k] ?_).mpr early)
    rw [List.getElem?_append_left hk, List.getElem?_eq_getElem hk]
  · have hk : as.length < k := Nat.lt_of_not_le wrong
    rw [List.length_append] at le
    have some : 0 < bs.length := by omega
    refine Nat.not_lt.mpr (behind _ (List.getElem_mem some)) ((h as.length bs[0] ?_).mp hk)
    rw [List.getElem?_append_right (Nat.le_refl _), Nat.sub_self, List.getElem?_eq_getElem some]

/-- Cut where no word goes across, a text has the words before the cut and those behind. -/
theorem chunkTexts_word_cut {p k : Nat} (few : k ≤ (chunkSpans cs .word c).length)
    (hp : p ≤ cs.length) (gap : BlankEnd (cs.take p) ∨ BlankStart (cs.drop p))
    (h : ∀ i s, (chunkSpans cs .word c)[i]? = some s → (i < k ↔ s.start < p)) :
    chunkTexts (cs.take p) .word c = (chunkTexts cs .word c).take k ∧
      chunkTexts (cs.drop p) .word c = (chunkTexts cs .word c).drop k := by
  have spans : chunkSpans cs .word c =
      wordSpans none 0 (cs.take p) ++ wordSpans none p (cs.drop p) := by
    have append := wordSpans_append gap 0
    rwa [List.take_append_drop, List.length_take, Nat.min_eq_left hp, Nat.zero_add,
      ← chunkSpans_word cs c] at append
  rw [spans] at few h
  have length : (chunkTexts (cs.take p) .word c).length = k := by
    rw [chunkTexts, List.length_map, chunkSpans_word]
    refine length_of_parts few (fun s hs => ?_) (fun s hs => ?_) h
    · have run := (mem_wordSpans _ s).mp hs
      have within := run.stop_le_length
      rw [List.length_take, Nat.min_eq_left hp] at within
      exact Nat.lt_of_lt_of_le run.nonempty within
    · exact (wordSpans_ordered none p _ (Nat.le_refl _)).2 s hs
  have texts := chunkTexts_word_append (c := c) gap
  rw [List.take_append_drop] at texts
  rw [texts]
  exact ⟨(List.take_left' length).symm, (List.drop_left' length).symm⟩

theorem inkRun_of_getElem? {i : Nat} {x : Span} (hx : (chunkSpans cs .word c)[i]? = some x) :
    InkRun cs x := by
  rw [chunkSpans_word] at hx
  exact (mem_wordSpans cs x).mp (List.mem_of_getElem? hx)

theorem stop_lt_start {i j : Nat} {x y : Span} (hx : (chunkSpans cs .word c)[i]? = some x)
    (hy : (chunkSpans cs .word c)[j]? = some y) (lt : i < j) : x.stop < y.start := by
  rw [chunkSpans_word] at hx hy
  obtain ⟨hi, rfl⟩ := List.getElem?_eq_some_iff.mp hx
  obtain ⟨hj, rfl⟩ := List.getElem?_eq_some_iff.mp hy
  exact List.pairwise_iff_getElem.mp (wordSpans_ordered none 0 cs (Nat.le_refl 0)).1 i j hi hj lt

section Cut

variable {i : Nat} {x : Span} (hx : (chunkSpans cs .word c)[i]? = some x)
include hx

/-- Words begin in the order of their numbers. -/
theorem word_order {j : Nat} {s : Span} (hs : (chunkSpans cs .word c)[j]? = some s) :
    (j < i ↔ s.start < x.start) ∧ (j < i + 1 ↔ s.start < x.stop) := by
  have nonempty := (inkRun_of_getElem? hx).nonempty
  have nonempty' := (inkRun_of_getElem? hs).nonempty
  rcases Nat.lt_trichotomy j i with lt | rfl | gt
  · have := stop_lt_start hs hx lt
    omega
  · obtain rfl := Option.some.inj (hx.symm.trans hs)
    omega
  · have := stop_lt_start hx hs gt
    omega

/-- A text cut where a word begins. -/
theorem word_starts :
    BlankEnd (cs.take x.start) ∧
      chunkTexts (cs.take x.start) .word c = (chunkTexts cs .word c).take i ∧
      chunkTexts (cs.drop x.start) .word c = (chunkTexts cs .word c).drop i := by
  have run := inkRun_of_getElem? hx
  have within : x.start ≤ cs.length := Nat.le_trans (Nat.le_of_lt run.nonempty) run.stop_le_length
  have ends : BlankEnd (cs.take x.start) := by
    intro z hz
    rw [List.getLast?_eq_getElem?, List.length_take, Nat.min_eq_left within, List.getElem?_take,
      Option.ite_none_right_eq_some] at hz
    by_contra ink
    exact run.starts (x.start - 1) (by omega) ⟨z, hz.2, Bool.eq_false_iff.mpr ink⟩
  refine ⟨ends, chunkTexts_word_cut ?_ within (.inl ends) fun j s hs => (word_order hx hs).1⟩
  exact Nat.le_of_lt (List.getElem?_eq_some_iff.mp hx).1

/-- A text cut where a word ends. -/
theorem word_stops :
    BlankStart (cs.drop x.stop) ∧
      chunkTexts (cs.take x.stop) .word c = (chunkTexts cs .word c).take (i + 1) ∧
      chunkTexts (cs.drop x.stop) .word c = (chunkTexts cs .word c).drop (i + 1) := by
  have run := inkRun_of_getElem? hx
  have starts : BlankStart (cs.drop x.stop) := by
    intro z hz
    rw [List.head?_drop] at hz
    by_contra ink
    exact run.stops ⟨z, hz, Bool.eq_false_iff.mpr ink⟩
  refine ⟨starts, chunkTexts_word_cut ?_ run.stop_le_length (.inr starts)
    fun j s hs => (word_order hx hs).2⟩
  exact (List.getElem?_eq_some_iff.mp hx).1

end Cut

/-- The words of a request are taken out. -/
theorem chunkTexts_delete_word
    (range : chunkRange (chunkCount cs .word c) first last = some (a, b)) :
    chunkTexts (deleteChunk cs .word first last c) .word c =
      (chunkTexts cs .word c).take a ++ (chunkTexts cs .word c).drop (b + 1) := by
  obtain ⟨x, y, hx, hy, cut⟩ := deleteChunk_cases (by decide : ChunkKind.word ≠ .char) range
  obtain ⟨next, hn, deleted⟩ | ⟨all, rfl, deleted⟩ | ⟨all, n, before, rfl, hb, deleted⟩ := cut
  · obtain ⟨ends, start, -⟩ := word_starts hx
    rw [deleted, chunkTexts_word_append (.inl ends), start, (word_starts hn).2.2]
  · have none : (chunkTexts cs .word c).drop (b + 1) = [] := by
      rw [← all, List.drop_eq_nil_iff, chunkTexts, List.length_map]
      exact Nat.le_refl _
    rw [deleted, (word_starts hx).2.1, none, List.append_nil]
  · obtain ⟨starts, -, stop⟩ := word_stops hy
    rw [deleted, chunkTexts_word_append (.inr starts), (word_stops hb).2.1, stop]

/-! ## All kinds -/

/-- The characters of a request are taken out. -/
theorem chunkTexts_delete_char
    (range : chunkRange (chunkCount cs .char c) first last = some (a, b)) :
    chunkTexts (deleteChunk cs .char first last c) .char c =
      (chunkTexts cs .char c).take a ++ (chunkTexts cs .char c).drop (b + 1) := by
  have spans : chunkSpans cs .char c = (List.range cs.length).map fun i => ⟨i, i + 1⟩ := by
    cases cs <;> rfl
  obtain ⟨x, y, hx, hy⟩ := exists_ends range
  have deleted : deleteChunk cs .char first last c = cs.take x.start ++ cs.drop y.stop :=
    deleteChunk_some range hx hy
  rw [spans, List.getElem?_map, Option.map_eq_some_iff] at hx hy
  obtain ⟨i, hi, rfl⟩ := hx
  obtain ⟨j, hj, rfl⟩ := hy
  obtain ⟨ha, rfl⟩ := List.getElem?_eq_some_iff.mp hi
  obtain ⟨hb, rfl⟩ := List.getElem?_eq_some_iff.mp hj
  rw [deleted, chunkTexts_char, chunkTexts_char, List.getElem_range, List.getElem_range,
    List.map_append, List.map_take, List.map_drop]

theorem nthChunk_delete {pieces : List (List Char)} (le : a ≤ b) (few : b < pieces.length)
    (before : ∀ n, nthChunk cs kind (n + 1) c = pieces.getD n [])
    (after : ∀ n, nthChunk t kind (n + 1) c = (pieces.take a ++ pieces.drop (b + 1)).getD n [])
    (n : Nat) :
    nthChunk t kind n c = nthChunk cs kind (if n ≤ a then n else n + (b - a + 1)) c := by
  cases n with
  | zero => rfl
  | succ n =>
    rw [after, getD_take_append_drop le few]
    by_cases h : n < a
    · rw [if_pos h, if_pos (Nat.succ_le_of_lt h), before]
    · have number : n + 1 + (b - a + 1) = n + (b + 1 - a) + 1 := by omega
      rw [if_neg h, if_neg (by omega), number, before]

/-- Items that are joined are read again. -/
theorem nthChunk_joined_item {pieces : List (List Char)}
    (absent : ∀ piece ∈ pieces, ¬ [c] <:+: piece) (n : Nat) :
    nthChunk ([c].intercalate pieces) .item (n + 1) c = pieces.getD n [] := by
  rcases eq_or_ne pieces [] with rfl | some
  · rfl
  · exact (parted_item (splits_intercalate (unbordered_singleton c) some absent)).nth n

/-- So are lines, if there is no character of a terminator in them. -/
theorem nthChunk_joined_line {d : List Char} (hd : d = ['\r', '\n'] ∨ d = ['\n'] ∨ d = ['\r'])
    {pieces : List (List Char)} (plain : ∀ piece ∈ pieces, NoBreak piece) (n : Nat) :
    nthChunk (d.intercalate pieces) .line (n + 1) c = pieces.getD n [] := by
  obtain rfl | ⟨xs, y, rfl⟩ := List.eq_nil_or_concat' pieces
  · rfl
  have line {x : List Char} (hx : NoBreak x) : ¬ d <:+: x ∧ Foremost d (x ++ d) :=
    ⟨not_infix_of_noBreak hd hx, foremost_line_of_noBreak hd hx⟩
  have last : NoBreak y := plain y (List.mem_append_right _ (List.mem_singleton_self y))
  refine (parted_line (splits_lines hd (fun x hx => line (plain x ?_)) ?_ fun _ => last)).nth n
  · exact List.mem_append_left _ hx
  · exact ⟨(line last).1, foremost_of_noBreak last⟩

/-- What is read after a deletion: the chunks before those deleted, then the chunks behind
them, which move up. The lines of a text are told apart from what is left of it only if
there are no other terminators in them. Where nothing is selected nothing changes. -/
theorem delete_exact (cs : List Char) (kind : ChunkKind) (first last : Int32) (c : Char)
    (lines : kind = .line → ∀ line ∈ chunkTexts cs .line c, NoBreak line) :
    let t := deleteChunk cs kind first last c
    (∀ (text : List Char) (j : Int32),
      chunkAt text kind j c = nthChunk text kind j.toInt.toNat c) ∧
    match chunkRange (chunkCount cs kind c) first last with
    | none => t = cs
    | some (a, b) =>
      ∀ j, nthChunk t kind j c = nthChunk cs kind (if j ≤ a then j else j + (b - a + 1)) c := by
  intro t
  refine ⟨fun text j => chunkAt_eq text kind j c, ?_⟩
  cases range : chunkRange (chunkCount cs kind c) first last with
  | none => exact deleteChunk_none range
  | some selected =>
    obtain ⟨a, b⟩ := selected
    obtain ⟨le, few⟩ := chunkRange_bounds range
    have texts : (chunkTexts cs kind c).length = chunkCount cs kind c := List.length_map _
    have piece_of {pieces : List (List Char)} {piece : List Char}
        (h : piece ∈ pieces.take a ++ pieces.drop (b + 1)) : piece ∈ pieces :=
      (List.mem_append.mp h).elim List.mem_of_mem_take List.mem_of_mem_drop
    cases kind with
    | char =>
      refine nthChunk_delete le (texts.symm ▸ few) (fun _ => rfl) fun n => ?_
      rw [← chunkTexts_delete_char range]
      rfl
    | word =>
      refine nthChunk_delete le (texts.symm ▸ few) (fun _ => rfl) fun n => ?_
      rw [← chunkTexts_delete_word range]
      rfl
    | item =>
      obtain ⟨pieces, split⟩ := exists_splits (List.cons_ne_nil c []) cs
      have before : Parted cs .item c [c] pieces := parted_item split
      refine nthChunk_delete le (Nat.lt_of_lt_of_le few before.count_le) before.nth fun n => ?_
      rw [show t = _ from before.delete range]
      refine nthChunk_joined_item (fun piece hp => ?_) n
      exact split.absent (List.cons_ne_nil c []) (piece_of hp)
    | line =>
      obtain ⟨pieces, split⟩ := exists_splits (lineDelimiter_ne_nil cs) cs
      have before : Parted cs .line c (lineDelimiter cs) pieces := parted_line split
      refine nthChunk_delete le (Nat.lt_of_lt_of_le few before.count_le) before.nth fun n => ?_
      rw [show t = _ from before.delete range]
      refine nthChunk_joined_line (lineDelimiter_cases cs) (fun piece hp => ?_) n
      -- A piece that is no line is the empty one behind a terminator at the end.
      have kept := piece_of hp
      rw [← List.take_append_drop (chunkCount cs .line c) pieces] at kept
      rcases List.mem_append.mp kept with line | empty
      · exact lines rfl piece (before.texts ▸ line)
      · rcases before.rest with rest | rest <;> rw [rest] at empty
        · cases empty
        · exact List.mem_singleton.mp empty ▸ noBreak_nil

/-- The first two of three lines are deleted, of which the second is empty. -/
theorem delete_exact_terminated :
    let cs := "a\r\n\r\nb\r\n".toList
    (∀ line ∈ chunkTexts cs .line ',', NoBreak line) ∧
    chunkRange (chunkCount cs .line ',') 0 2 = some (0, 1) ∧
    deleteChunk cs .line 0 2 ',' = "b\r\n".toList ∧
    ∀ j, nthChunk (deleteChunk cs .line 0 2 ',') .line j ',' =
      nthChunk cs .line (if j ≤ 0 then j else j + 2) ',' := by
  intro cs
  have plain : ∀ line ∈ chunkTexts cs .line ',', NoBreak line := by decide
  have range : chunkRange (chunkCount cs .line ',') 0 2 = some (0, 1) := by decide
  have deleted := (delete_exact cs .line 0 2 ',' fun _ => plain).2
  rw [range] at deleted
  exact ⟨plain, range, by decide, deleted⟩

end Lingo
