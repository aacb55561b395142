import Mathlib.Data.List.Infix
import Lingo.Chunk.Span

/-!
# Splitting texts

Items and lines lie between the occurrences of a delimiter, which are found from
left to right and do not overlap. `Splits delimiter cs pieces` says so of the
pieces of a text, without positions: the text ends with its only piece, or its
first piece ends where the delimiter occurs first and the rest is split in turn.

* `exists_splits`: every text has its pieces;
* `Splits.joined`, `Splits.absent`, `Splits.count`: the pieces joined are the text,
  none contains the delimiter, and how many there are;
* `Splits.spans`: where they are (`layOut`) is where `splitSpans` finds them;
* `slice_layOut`, `slice_through`: the stretches from piece to piece.
-/

namespace Lingo

variable {delimiter : List Char}

/-! ## The first occurrence of a delimiter -/

/-- In the text `piece ++ (delimiter ++ rest)` the delimiter occurs nowhere
earlier. -/
def First (delimiter piece rest : List Char) : Prop :=
  ∀ before inside, inside ≠ [] → piece = before ++ inside →
    ¬ delimiter <+: inside ++ (delimiter ++ rest)

theorem First.nil (rest : List Char) : First delimiter [] rest := by
  intro before inside hi h
  exact absurd (List.append_eq_nil_iff.mp h.symm).2 hi

theorem First.tail {c : Char} {piece rest : List Char} (h : First delimiter (c :: piece) rest) :
    First delimiter piece rest :=
  fun before inside hi split => h (c :: before) inside hi (congrArg (c :: ·) split)

theorem First.head {c : Char} {piece rest : List Char} (h : First delimiter (c :: piece) rest) :
    ¬ delimiter <+: c :: (piece ++ (delimiter ++ rest)) :=
  h [] (c :: piece) (List.cons_ne_nil _ _) rfl

theorem exists_first {cs : List Char} (h : delimiter <:+: cs) :
    ∃ piece rest, cs = piece ++ (delimiter ++ rest) ∧ First delimiter piece rest := by
  induction cs with
  | nil =>
    obtain rfl := List.infix_nil.mp h
    exact ⟨[], [], rfl, .nil _⟩
  | cons c cs ih =>
    by_cases here : delimiter <+: c :: cs
    · obtain ⟨rest, hr⟩ := here
      exact ⟨[], rest, hr.symm, .nil _⟩
    · obtain ⟨piece, rest, rfl, first⟩ := ih ((List.infix_cons_iff.mp h).resolve_left here)
      refine ⟨c :: piece, rest, rfl, fun before inside hi split => ?_⟩
      cases before with
      | nil =>
        obtain rfl : inside = c :: piece := split.symm
        exact here
      | cons b before =>
        obtain ⟨-, split⟩ := List.cons.inj split
        exact first before inside hi split

/-! ## Pieces -/

/-- The pieces of a text between the occurrences of the delimiter. -/
inductive Splits (delimiter : List Char) : List Char → List (List Char) → Prop
  | last {cs : List Char} (h : ¬ delimiter <:+: cs) : Splits delimiter cs [cs]
  | next {piece rest : List Char} {pieces : List (List Char)} (first : First delimiter piece rest)
    (later : Splits delimiter rest pieces) :
    Splits delimiter (piece ++ (delimiter ++ rest)) (piece :: pieces)

/-- Every text has its pieces. -/
theorem exists_splits (hd : delimiter ≠ []) (cs : List Char) :
    ∃ pieces, Splits delimiter cs pieces := by
  have length := List.length_pos_iff.mpr hd
  induction hn : cs.length using Nat.strong_induction_on generalizing cs with
  | _ n ih =>
    by_cases h : delimiter <:+: cs
    · obtain ⟨piece, rest, rfl, first⟩ := exists_first h
      have shorter : rest.length < n := by
        rw [List.length_append, List.length_append] at hn
        omega
      obtain ⟨pieces, later⟩ := ih _ shorter rest rfl
      exact ⟨piece :: pieces, .next first later⟩
    · exact ⟨[cs], .last h⟩

namespace Splits

variable {cs : List Char} {pieces : List (List Char)}

theorem ne_nil (h : Splits delimiter cs pieces) : pieces ≠ [] := by
  cases h <;> exact List.cons_ne_nil _ _

/-- There is a last piece. -/
theorem exists_concat (h : Splits delimiter cs pieces) : ∃ xs y, pieces = xs ++ [y] :=
  ⟨_, _, (List.dropLast_concat_getLast h.ne_nil).symm⟩

theorem joined (h : Splits delimiter cs pieces) : delimiter.intercalate pieces = cs := by
  induction h with
  | last => exact List.intercalate_singleton
  | next first later ih =>
    obtain ⟨p, ps, rfl⟩ := List.exists_cons_of_ne_nil later.ne_nil
    rw [List.intercalate_cons_cons, ih, List.append_assoc]

/-- No piece contains the delimiter. -/
theorem absent (h : Splits delimiter cs pieces) (hd : delimiter ≠ []) {piece : List Char}
    (hp : piece ∈ pieces) : ¬ delimiter <:+: piece := by
  induction h with
  | last h =>
    obtain rfl := List.mem_singleton.mp hp
    exact h
  | @next first rest pieces earliest later ih =>
    rcases List.mem_cons.mp hp with rfl | hp
    · rintro ⟨before, behind, split⟩
      refine earliest before (delimiter ++ behind) ?_ ?_ ?_
      · exact fun h => hd (List.append_eq_nil_iff.mp h).1
      · rw [← split, List.append_assoc]
      · rw [List.append_assoc]
        exact List.prefix_append _ _
    · exact ih hp

/-- With a delimiter of one character, there is a piece for each occurrence and one
more. -/
theorem count {c : Char} (h : Splits [c] cs pieces) : pieces.length = cs.count c + 1 := by
  induction h with
  | last h =>
    rw [List.count_eq_zero_of_not_mem (fun hc => h ((List.singleton_infix_iff c _).mpr hc))]
    rfl
  | @next piece rest pieces first later ih =>
    have whole : Splits [c] (piece ++ ([c] ++ rest)) (piece :: pieces) := .next first later
    have none := whole.absent (List.cons_ne_nil c []) (List.mem_cons_self ..)
    rw [List.length_cons, ih, List.count_append, List.count_append, List.count_singleton_self,
      List.count_eq_zero_of_not_mem (fun hc => none ((List.singleton_infix_iff c _).mpr hc))]
    omega

/-- Where the delimiter does not overlap with itself, the last piece is empty if the
text ends with the delimiter, or has nothing to split. -/
theorem getLast_eq_nil_iff (h : Splits delimiter cs pieces)
    (apart : ∀ border, border <+: delimiter → border <:+ delimiter →
      border = [] ∨ border = delimiter) :
    pieces.getLast h.ne_nil = [] ↔ cs = [] ∨ delimiter <:+ cs := by
  induction h with
  | @last cs none =>
    rw [List.getLast_singleton]
    exact ⟨.inl, fun h => h.resolve_right fun ends => none ends.isInfix⟩
  | @next piece rest pieces first later ih =>
    rw [List.getLast_cons later.ne_nil, ih]
    constructor
    · rintro (rfl | ends)
      · exact .inr ⟨piece, by rw [List.append_nil]⟩
      · exact .inr (ends.trans ((List.suffix_append _ _).trans (List.suffix_append _ _)))
    · rintro (none | ends)
      · exact .inl (List.append_eq_nil_iff.mp (List.append_eq_nil_iff.mp none).2).2
      have behind : rest <:+ piece ++ (delimiter ++ rest) :=
        (List.suffix_append _ _).trans (List.suffix_append _ _)
      rcases Nat.le_total delimiter.length rest.length with short | long
      · exact .inr (List.suffix_of_suffix_length_le ends behind short)
      -- What of the delimiter stands before `rest` is the end of a delimiter as well.
      obtain ⟨border, split⟩ := List.suffix_of_suffix_length_le behind ends long
      obtain ⟨before, at_end⟩ := ends
      have same : before ++ border = piece ++ delimiter := by
        rw [← List.append_assoc] at at_end
        have same : (before ++ border) ++ rest = (piece ++ delimiter) ++ rest := by
          rw [List.append_assoc, split, at_end]
        exact List.append_cancel_right same
      have shorter : border.length ≤ delimiter.length := by
        rw [← split, List.length_append]
        exact Nat.le_add_right _ _
      have suffix : border <:+ delimiter :=
        List.suffix_of_suffix_length_le ⟨before, same⟩ (List.suffix_append _ _) shorter
      rcases apart border ⟨rest, split⟩ suffix with rfl | rfl
      · obtain rfl : rest = delimiter := split
        exact .inr (List.suffix_refl _)
      · exact .inl (List.append_right_eq_self.mp split)

end Splits

/-! ## Positions -/

/-- Where pieces are that begin at a position, with `gap` characters between
them. -/
def layOut (gap : Nat) : Nat → List (List Char) → List Span
  | _, [] => []
  | start, piece :: pieces =>
    ⟨start, start + piece.length⟩ :: layOut gap (start + piece.length + gap) pieces

@[simp] theorem length_layOut (gap start : Nat) (pieces : List (List Char)) :
    (layOut gap start pieces).length = pieces.length := by
  induction pieces generalizing start with
  | nil => rfl
  | cons piece pieces ih => rw [layOut, List.length_cons, List.length_cons, ih]

/-- The characters of a delimiter that was found are passed over. -/
theorem splitSpans_skip (found rest : List Char) (start pos : Nat) :
    splitSpans delimiter start pos found.length (found ++ rest) =
      splitSpans delimiter start (pos + found.length) 0 rest := by
  induction found generalizing pos with
  | nil => rfl
  | cons c found ih =>
    rw [List.length_cons, List.cons_append, splitSpans, ih]
    congr 1
    omega

theorem splitSpans_last {cs : List Char} (h : ¬ delimiter <:+: cs) (start pos : Nat) :
    splitSpans delimiter start pos 0 cs = [⟨start, pos + cs.length⟩] := by
  induction cs generalizing pos with
  | nil => rfl
  | cons c cs ih =>
    rw [List.infix_cons_iff, not_or] at h
    rw [splitSpans, if_neg (fun found => h.1 (List.isPrefixOf_iff_prefix.mp found)), ih h.2,
      List.length_cons]
    congr 2
    omega

theorem splitSpans_next (hd : delimiter ≠ []) {piece rest : List Char}
    (h : First delimiter piece rest) (start pos : Nat) :
    splitSpans delimiter start pos 0 (piece ++ (delimiter ++ rest)) =
      ⟨start, pos + piece.length⟩ ::
        splitSpans delimiter (pos + piece.length + delimiter.length)
          (pos + piece.length + delimiter.length) 0 rest := by
  induction piece generalizing pos with
  | nil =>
    obtain ⟨c, found, rfl⟩ := List.exists_cons_of_ne_nil hd
    have here : (c :: found).isPrefixOf (c :: (found ++ rest)) = true :=
      List.isPrefixOf_iff_prefix.mpr ⟨rest, rfl⟩
    rw [List.nil_append, List.cons_append, splitSpans, if_pos here, List.length_cons,
      Nat.add_sub_cancel, splitSpans_skip, List.length_nil, Nat.add_zero]
    congr 2
    omega
  | cons c piece ih =>
    have later : delimiter.isPrefixOf (c :: (piece ++ (delimiter ++ rest))) ≠ true :=
      fun found => h.head (List.isPrefixOf_iff_prefix.mp found)
    rw [List.cons_append, splitSpans, if_neg later, ih h.tail, List.length_cons]
    congr 2 <;> omega

/-- The stretches that are found are those of the pieces. -/
theorem Splits.spans {cs : List Char} {pieces : List (List Char)}
    (h : Splits delimiter cs pieces) (hd : delimiter ≠ []) (start : Nat) :
    splitSpans delimiter start start 0 cs = layOut delimiter.length start pieces := by
  induction h generalizing start with
  | last h => exact splitSpans_last h start start
  | next first _ ih => rw [splitSpans_next hd first, ih, layOut]

/-! ## Stretches of a text -/

theorem intercalate_cons (piece : List Char) (pieces : List (List Char)) :
    delimiter.intercalate (piece :: pieces) = piece ++ pieces.flatMap (delimiter ++ ·) := by
  induction pieces generalizing piece with
  | nil => rw [List.intercalate_singleton, List.flatMap_nil, List.append_nil]
  | cons p ps ih =>
    rw [List.intercalate_cons_cons, ih, List.flatMap_cons, List.append_assoc, List.append_assoc]

/-- What stands before some of the pieces: those before them, each with a
delimiter. -/
theorem intercalate_append (xs : List (List Char)) {ys : List (List Char)} (hy : ys ≠ []) :
    delimiter.intercalate (xs ++ ys) =
      xs.flatMap (· ++ delimiter) ++ delimiter.intercalate ys := by
  induction xs with
  | nil => rfl
  | cons x xs ih =>
    obtain ⟨p, ps, split⟩ := List.exists_cons_of_ne_nil (List.append_ne_nil_of_right_ne_nil xs hy)
    rw [List.cons_append, split, List.intercalate_cons_cons, ← split, ih, List.flatMap_cons,
      List.append_assoc, List.append_assoc, List.append_assoc]

theorem intercalate_concat (xs : List (List Char)) (y : List Char) :
    delimiter.intercalate (xs ++ [y]) = xs.flatMap (· ++ delimiter) ++ y := by
  rw [intercalate_append _ (List.cons_ne_nil y []), List.intercalate_singleton]

/-- What stands behind some of the pieces: those behind them, each with a delimiter. -/
theorem intercalate_append_behind {xs : List (List Char)} (hx : xs ≠ []) (ys : List (List Char)) :
    delimiter.intercalate (xs ++ ys) =
      delimiter.intercalate xs ++ ys.flatMap (delimiter ++ ·) := by
  obtain ⟨x, xs, rfl⟩ := List.exists_cons_of_ne_nil hx
  rw [List.cons_append, intercalate_cons, intercalate_cons, List.flatMap_append, List.append_assoc]

/-- The joined pieces begin with the first of them, joined. -/
theorem intercalate_prefix {xs : List (List Char)} (hx : xs ≠ []) (ys : List (List Char)) :
    delimiter.intercalate xs <+: delimiter.intercalate (xs ++ ys) :=
  ⟨_, (intercalate_append_behind hx ys).symm⟩

theorem layOut_getElem? (start : Nat) (pieces : List (List Char)) (i : Nat) :
    (layOut delimiter.length start pieces)[i]? = pieces[i]?.map fun piece =>
      let before := start + ((pieces.take i).flatMap (· ++ delimiter)).length
      ⟨before, before + piece.length⟩ := by
  induction pieces generalizing start i with
  | nil => rfl
  | cons p pieces ih =>
    cases i with
    | zero => rfl
    | succ i =>
      rw [layOut, List.getElem?_cons_succ, List.getElem?_cons_succ, ih, List.take_succ_cons,
        List.flatMap_cons, List.length_append, List.length_append]
      simp only [Nat.add_assoc]

theorem slice_append (before cs behind : List Char) :
    Span.slice ⟨before.length, before.length + cs.length⟩ (before ++ (cs ++ behind)) = cs := by
  rw [Span.slice, List.take_length_add_append, List.take_left, List.drop_left]

/-- The stretch from one piece to a later one has the pieces between, joined. -/
theorem slice_through (pieces : List (List Char)) {a b : Nat} {x y : Span}
    (hx : (layOut delimiter.length 0 pieces)[a]? = some x)
    (hy : (layOut delimiter.length 0 pieces)[b]? = some y) (le : a ≤ b) :
    (x.through y).slice (delimiter.intercalate pieces) =
      delimiter.intercalate ((pieces.drop a).take (b + 1 - a)) := by
  rw [layOut_getElem?, Option.map_eq_some_iff] at hx hy
  obtain ⟨p, -, rfl⟩ := hx
  obtain ⟨q, hq, rfl⟩ := hy
  have few := (List.getElem?_eq_some_iff.mp hq).1
  let before := (pieces.take a).flatMap (· ++ delimiter)
  let chosen := (pieces.drop a).take (b + 1 - a)
  have hc : chosen ≠ [] := by
    rw [← List.length_pos_iff, List.length_take, List.length_drop]
    omega
  have stop : ((pieces.take b).flatMap (· ++ delimiter)).length + q.length =
      before.length + (delimiter.intercalate chosen).length := by
    have last : pieces.take (b + 1) = pieces.take b ++ [q] := by rw [List.take_add_one, hq]; rfl
    have first : pieces.take (b + 1) = pieces.take a ++ chosen := by
      rw [← List.take_append_drop a (pieces.take (b + 1)), List.take_take, List.drop_take,
        Nat.min_eq_left (Nat.le_succ_of_le le)]
    have same := congrArg delimiter.intercalate (last.symm.trans first)
    rw [intercalate_concat, intercalate_append _ hc] at same
    simpa only [List.length_append] using congrArg List.length same
  obtain ⟨behind, joined⟩ :
      delimiter.intercalate chosen <+: delimiter.intercalate (pieces.drop a) := by
    rw [← List.take_append_drop (b + 1 - a) (pieces.drop a)]
    exact intercalate_prefix hc _
  have rest : pieces.drop a ≠ [] := by
    rw [← List.length_pos_iff, List.length_drop]
    omega
  have whole :
      delimiter.intercalate pieces = before ++ (delimiter.intercalate chosen ++ behind) := by
    rw [joined, ← intercalate_append _ rest, List.take_append_drop]
  simp only [Span.through, Nat.zero_add]
  rw [stop, whole]
  exact slice_append before _ behind

/-- The stretches of the pieces have the pieces. -/
theorem slice_layOut (pieces : List (List Char)) :
    (layOut delimiter.length 0 pieces).map (·.slice (delimiter.intercalate pieces)) = pieces := by
  apply List.ext_getElem?
  intro i
  rw [List.getElem?_map]
  cases hp : pieces[i]? with
  | none => rw [layOut_getElem?, hp]; rfl
  | some p =>
    obtain ⟨x, hx⟩ : ∃ x, (layOut delimiter.length 0 pieces)[i]? = some x := by
      rw [layOut_getElem?, hp]
      exact ⟨_, rfl⟩
    have alone : (pieces.drop i).take (i + 1 - i) = [p] := by
      rw [Nat.add_sub_cancel_left, List.take_one, List.head?_drop, hp]
      rfl
    have slice := slice_through pieces hx hx (Nat.le_refl i)
    rw [alone, List.intercalate_singleton] at slice
    rw [hx, Option.map_some, ← slice]
    rfl

end Lingo
