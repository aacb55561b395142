import Mathlib.Data.List.Basic
import Lingo.Proofs.Splitting

/-!
# Texts with changed pieces

A text is its pieces joined with a delimiter. Cut where a piece begins or ends, it
falls into joined pieces again (`cut_start`, `cut_stop`), so that what is put together
from such parts is the text of changed pieces:

* `replace_piece`: one piece is replaced;
* `intercalate_assignPiece`: delimiters and a piece are added at the end of the text.

The changed pieces are those of the text they are joined to if none has the delimiter
in it and the delimiter does not overlap with itself (`splits_intercalate`).
-/

namespace Lingo

variable {delimiter : List Char}

/-! ## Pieces of joined pieces -/

/-- What the text begins with and ends with is nothing or all of it. -/
def Unbordered (delimiter : List Char) : Prop :=
  ∀ border, border <+: delimiter → border <:+ delimiter → border = [] ∨ border = delimiter

theorem unbordered_singleton (c : Char) : Unbordered [c] := by
  intro border first _
  refine (List.prefix_cons_iff.mp first).imp_right fun ⟨rest, split, empty⟩ => ?_
  rw [split, List.prefix_nil.mp empty]

theorem First.of_absent (whole : Unbordered delimiter) {piece : List Char}
    (absent : ¬ delimiter <:+: piece) (rest : List Char) : First delimiter piece rest := by
  intro before inside hi split found
  have behind : inside <:+ piece := ⟨before, split.symm⟩
  have start : inside <+: inside ++ (delimiter ++ rest) := List.prefix_append _ _
  rcases Nat.le_total delimiter.length inside.length with short | long
  · exact absent ((List.prefix_of_prefix_length_le found start short).isInfix.trans behind.isInfix)
  -- The delimiter goes on behind `inside`, with a beginning of itself.
  obtain ⟨border, across⟩ := List.prefix_of_prefix_length_le start found long
  have suffix : border <:+ delimiter := ⟨inside, across⟩
  rw [← across, List.prefix_append_right_inj, across] at found
  have first : border <+: delimiter :=
    List.prefix_of_prefix_length_le found (List.prefix_append _ _) suffix.length_le
  rcases whole border first suffix with rfl | rfl
  · rw [List.append_nil] at across
    exact absent (across ▸ behind.isInfix)
  · exact hi (List.append_left_eq_self.mp across)

/-- Pieces without the delimiter are the pieces of the text they are joined to. -/
theorem splits_intercalate (whole : Unbordered delimiter) {pieces : List (List Char)}
    (some : pieces ≠ []) (absent : ∀ piece ∈ pieces, ¬ delimiter <:+: piece) :
    Splits delimiter (delimiter.intercalate pieces) pieces := by
  induction pieces with
  | nil => exact absurd rfl some
  | cons piece pieces ih =>
    have here := absent piece (List.mem_cons_self ..)
    cases pieces with
    | nil =>
      rw [List.intercalate_singleton]
      exact .last here
    | cons next pieces =>
      rw [List.intercalate_cons_cons, List.append_assoc]
      refine .next (.of_absent whole here _) (ih (List.cons_ne_nil _ _) fun p hp => ?_)
      exact absent p (List.mem_cons_of_mem _ hp)

/-- A text without a character of the delimiter completes none at the end of another. -/
theorem not_infix_append {piece text : List Char} (hd : delimiter ≠ [])
    (absent : ¬ delimiter <:+: piece) (free : ∀ x ∈ delimiter, x ∉ text) :
    ¬ delimiter <:+: piece ++ text := by
  rw [List.infix_append_iff_ne_nil]
  rintro (found | found | ⟨first, second, -, hs, rfl, -, begins⟩)
  · exact absent found
  · obtain ⟨x, hx⟩ := List.exists_mem_of_ne_nil _ hd
    exact free x hx (found.subset hx)
  · obtain ⟨x, hx⟩ := List.exists_mem_of_ne_nil _ hs
    exact free x (List.mem_append_right _ hx) (begins.subset hx)

/-! ## Cutting a text at its pieces -/

section Cut

variable {pieces : List (List Char)} {i : Nat} {x : Span}

/-- The text up to a piece, and from it on. -/
theorem cut_start (hx : (layOut delimiter.length 0 pieces)[i]? = some x) :
    (delimiter.intercalate pieces).take x.start = (pieces.take i).flatMap (· ++ delimiter) ∧
      (delimiter.intercalate pieces).drop x.start = delimiter.intercalate (pieces.drop i) := by
  rw [layOut_getElem?, Option.map_eq_some_iff] at hx
  obtain ⟨piece, hp, rfl⟩ := hx
  have rest : pieces.drop i ≠ [] := by
    rw [← List.length_pos_iff, List.length_drop]
    exact Nat.sub_pos_of_lt (List.getElem?_eq_some_iff.mp hp).1
  have whole := @intercalate_append delimiter (pieces.take i) _ rest
  rw [List.take_append_drop] at whole
  rw [whole]
  exact ⟨List.take_left' (Nat.zero_add _).symm, List.drop_left' (Nat.zero_add _).symm⟩

/-- The text up to the end of a piece, and from there on. -/
theorem cut_stop (hx : (layOut delimiter.length 0 pieces)[i]? = some x) :
    (delimiter.intercalate pieces).take x.stop = delimiter.intercalate (pieces.take (i + 1)) ∧
      (delimiter.intercalate pieces).drop x.stop =
        (pieces.drop (i + 1)).flatMap (delimiter ++ ·) := by
  rw [layOut_getElem?, Option.map_eq_some_iff] at hx
  obtain ⟨piece, hp, rfl⟩ := hx
  have last : pieces.take (i + 1) = pieces.take i ++ [piece] := by rw [List.take_add_one, hp]; rfl
  have some : pieces.take (i + 1) ≠ [] := by rw [last]; exact List.concat_ne_nil _ _
  have whole := @intercalate_append_behind delimiter _ some (pieces.drop (i + 1))
  rw [List.take_append_drop] at whole
  have length : (delimiter.intercalate (pieces.take (i + 1))).length =
      0 + ((pieces.take i).flatMap (· ++ delimiter)).length + piece.length := by
    rw [last, intercalate_concat, List.length_append, Nat.zero_add]
  rw [whole]
  exact ⟨List.take_left' length, List.drop_left' length⟩

/-- A piece replaced. -/
theorem replace_piece (hx : (layOut delimiter.length 0 pieces)[i]? = some x) (text : List Char) :
    (delimiter.intercalate pieces).take x.start ++ text ++
        (delimiter.intercalate pieces).drop x.stop =
      delimiter.intercalate (pieces.set i text) := by
  have few : i < pieces.length := by
    rw [← length_layOut delimiter.length 0 pieces]
    exact (List.getElem?_eq_some_iff.mp hx).1
  rw [(cut_start hx).1, (cut_stop hx).2, List.set_eq_take_cons_drop _ few,
    intercalate_append _ (List.cons_ne_nil _ _), intercalate_cons, List.append_assoc]

end Cut

/-! ## Pieces assigned to -/

/-- The pieces with a text at a position, behind empty ones if they do not come so far. -/
def assignPiece (pieces : List (List Char)) (i : Nat) (text : List Char) : List (List Char) :=
  (pieces.rightpad (i + 1) []).set i text

section Assign

variable {pieces : List (List Char)} {i : Nat} {text : List Char}

theorem assignPiece_within (h : i < pieces.length) :
    assignPiece pieces i text = pieces.set i text := by
  rw [assignPiece, List.rightpad, Nat.sub_eq_zero_of_le h, List.replicate_zero, List.append_nil]

theorem assignPiece_past (h : pieces.length ≤ i) :
    assignPiece pieces i text = pieces ++ List.replicate (i - pieces.length) [] ++ [text] := by
  have length : (pieces ++ List.replicate (i - pieces.length) []).length = i := by
    rw [List.length_append, List.length_replicate, Nat.add_sub_cancel' h]
  rw [assignPiece, List.rightpad, Nat.sub_add_comm h, List.replicate_succ', ← List.append_assoc,
    List.set_append_right _ _ (Nat.le_of_eq length), length, Nat.sub_self]
  rfl

@[simp] theorem length_assignPiece :
    (assignPiece pieces i text).length = max pieces.length (i + 1) := by
  rw [assignPiece, List.length_set, List.length_rightpad, Nat.max_comm]

theorem getD_assignPiece (j : Nat) :
    (assignPiece pieces i text).getD j [] = if j = i then text else pieces.getD j [] := by
  rw [List.getD_eq_getElem?_getD, List.getD_eq_getElem?_getD, assignPiece, List.getElem?_set,
    List.length_rightpad, if_pos (by omega : i < max (i + 1) pieces.length)]
  by_cases h : i = j
  · rw [if_pos h, if_pos h.symm, Option.getD_some]
  rw [if_neg h, if_neg (Ne.symm h), List.rightpad]
  rcases Nat.lt_or_ge j pieces.length with within | past
  · rw [List.getElem?_append_left within]
  · rw [List.getElem?_append_right past, List.getElem?_replicate, List.getElem?_eq_none past]
    split <;> rfl

theorem mem_assignPiece {piece : List Char} (h : piece ∈ assignPiece pieces i text) :
    piece ∈ pieces ∨ piece = [] ∨ piece = text := by
  rcases List.mem_or_eq_of_mem_set h with h | h
  · exact (List.mem_append.mp h).imp_right fun h => .inl (List.eq_of_mem_replicate h)
  · exact .inr (.inr h)

/-- A text with delimiters and another piece at its end. -/
theorem intercalate_assignPiece (some : pieces ≠ []) (h : pieces.length ≤ i) :
    delimiter.intercalate (assignPiece pieces i text) =
      delimiter.intercalate pieces ++
        (List.replicate (i + 1 - pieces.length) delimiter).flatten ++ text := by
  have gaps (n : Nat) : (List.replicate n []).flatMap (delimiter ++ ·) =
      (List.replicate n delimiter).flatten := by
    rw [List.flatMap, List.map_replicate, List.append_nil]
  rw [assignPiece_past h, List.append_assoc, intercalate_append_behind some, List.flatMap_append,
    gaps, List.flatMap_singleton, Nat.sub_add_comm h, List.replicate_succ', List.flatten_append,
    List.flatten_singleton, List.append_assoc, List.append_assoc]

end Assign

/-! ## Pieces taken out -/

theorem getD_take_append_drop {pieces : List (List Char)} {a b : Nat} (le : a ≤ b)
    (few : b < pieces.length) (j : Nat) :
    (pieces.take a ++ pieces.drop (b + 1)).getD j [] =
      pieces.getD (if j < a then j else j + (b + 1 - a)) [] := by
  have length : (pieces.take a).length = a := by
    rw [List.length_take, Nat.min_eq_left (by omega)]
  rw [List.getD_eq_getElem?_getD, List.getD_eq_getElem?_getD]
  split
  · rename_i within
    rw [List.getElem?_append_left (length.symm ▸ within), List.getElem?_take_of_lt within]
  · rename_i past
    rw [List.getElem?_append_right (by omega), length, List.getElem?_drop]
    congr 2
    omega

end Lingo
