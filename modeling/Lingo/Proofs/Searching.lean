import Mathlib.Algebra.Order.Ring.Nat
import Mathlib.Data.List.Forall2
import Mathlib.Data.Nat.Find
import Lingo.Builtin.Builtin
import Lingo.Proofs.Interning
import Lingo.Proofs.Routine

/-!
# Searching texts without regard to case

`offset` looks for the lower case of one text in the lower case of another, and counts
characters there. A text in lower case is put together from pieces, one for each letter of the
text (`Text.IsPiece`). All pieces are one character long but that of a dotted capital i, which
is two, and all are the same wherever the letter stands but that of a capital sigma.

* `textOffset_eq_succ_iff`: the answer is the first place in the lower case;
* `Text.exists_start`, `Text.exists_stop`: what stands there starts and ends where pieces do,
  unless it parts the two halves of one;
* `Text.standsAt_iff`: so it is what occurs in the text itself, as much further on as there are
  dotted capital i's before it;
* `offset_place`: what follows for the answer;
* `offset_misses`: answers that do not point into the text.
-/

namespace Lingo

open List (Forall₂)
open Machine
open Host (perform)

/-- The least number with a property. -/
def Earliest (p : Nat → Prop) (i : Nat) : Prop :=
  p i ∧ ∀ j < i, ¬ p j

theorem exists_earliest {p : Nat → Prop} (h : ∃ i, p i) : ∃ i, Earliest p i := by
  classical exact ⟨Nat.find h, Nat.find_spec h, fun _ less => Nat.find_min h less⟩

theorem Earliest.unique {p : Nat → Prop} {i j : Nat} (hi : Earliest p i) (hj : Earliest p j) :
    i = j := by
  rcases Nat.lt_trichotomy i j with less | eq | less
  · exact absurd hi.1 (hj.2 i less)
  · exact eq
  · exact absurd hj.1 (hi.2 j less)

/-! ## The first occurrence of a pattern -/

section

variable {pattern cs : List Char} {pos k : Nat}

/-- The pattern stands in the text behind so many characters. -/
def StandsAt (pattern cs : List Char) (i : Nat) : Prop :=
  pattern <+: cs.drop i

theorem findPattern_eq_some_iff : findPattern pattern pos cs = some k ↔
    ∃ i, k = pos + i ∧ Earliest (StandsAt pattern cs) i := by
  induction cs generalizing pos with
  | nil =>
    by_cases empty : pattern = []
    · subst empty
      constructor
      · rintro ⟨⟩
        exact ⟨0, rfl, List.nil_prefix, by simp⟩
      · rintro ⟨i, rfl, -, first⟩
        cases i with
        | zero => rfl
        | succ i => exact absurd List.nil_prefix (first 0 (Nat.succ_pos i))
    · simp [findPattern, empty, Earliest, StandsAt]
  | cons c cs ih =>
    unfold findPattern
    split
    · rename_i here
      rw [List.isPrefixOf_iff_prefix] at here
      constructor
      · rintro ⟨⟩
        exact ⟨0, rfl, here, by simp⟩
      · rintro ⟨i, rfl, -, first⟩
        cases i with
        | zero => rfl
        | succ i => exact absurd here (first 0 (Nat.succ_pos i))
    · rename_i here
      rw [List.isPrefixOf_iff_prefix] at here
      rw [ih]
      constructor
      · rintro ⟨i, rfl, found, first⟩
        refine ⟨i + 1, by omega, found, fun j hj => ?_⟩
        cases j with
        | zero => exact here
        | succ j => exact first j (by omega)
      · rintro ⟨i, rfl, found, first⟩
        cases i with
        | zero => exact absurd found here
        | succ i => exact ⟨i, by omega, found, fun j hj => first (j + 1) (by omega)⟩

theorem findPattern_eq_none_iff (pos : Nat) :
    findPattern pattern pos cs = none ↔ ∀ i, ¬ StandsAt pattern cs i := by
  constructor
  · intro none i found
    obtain ⟨i, first⟩ := exists_earliest ⟨i, found⟩
    have found : findPattern pattern pos cs = some (pos + i) :=
      findPattern_eq_some_iff.mpr ⟨i, rfl, first⟩
    rw [none] at found
    cases found
  · intro absent
    cases found : findPattern pattern pos cs with
    | none => rfl
    | some k =>
      obtain ⟨i, -, found, -⟩ := findPattern_eq_some_iff.mp found
      exact absurd found (absent i)

end

/-! ## Lower case, letter by letter -/

namespace Text

variable {cs : List Char} {ps : List (List Char)}

/-- What a letter becomes that does not depend on its neighbours. -/
def lowerPiece (c : Char) : List Char :=
  if c = 'İ' then ['i', '\u0307'] else [lowerChar c]

/-- What a letter may become among others. -/
inductive IsPiece : Char → List Char → Prop
  | sigma : IsPiece 'Σ' ['σ']
  | finalSigma : IsPiece 'Σ' ['ς']
  | letter {c : Char} (h : c ≠ 'Σ') : IsPiece c (lowerPiece c)

theorem exists_pieces (before cs : List Char) :
    ∃ ps, Forall₂ IsPiece cs ps ∧ lowerFrom before cs = ps.flatten := by
  induction cs generalizing before with
  | nil => exact ⟨[], .nil, rfl⟩
  | cons c cs ih =>
    obtain ⟨ps, pieces, lowered⟩ := ih (c :: before)
    unfold lowerFrom
    rw [lowered]
    refine ⟨_ :: ps, .cons ?_ pieces, rfl⟩
    by_cases sigma : c = 'Σ'
    · rw [if_pos (beq_iff_eq.mpr sigma), sigma]
      split
      · exact .finalSigma
      · exact .sigma
    · have piece : lowerPiece c = if (c == 'İ') = true then ['i', '\u0307'] else [lowerChar c] := by
        simp only [lowerPiece, beq_iff_eq]
      rw [if_neg (by simpa using sigma), ← piece]
      exact .letter sigma

/-- Without a capital sigma, every letter becomes what it becomes anywhere. -/
theorem pieces_eq (plain : 'Σ' ∉ cs) (pieces : Forall₂ IsPiece cs ps) : ps = cs.map lowerPiece := by
  induction pieces with
  | nil => rfl
  | cons piece _ ih =>
    rw [List.mem_cons, not_or] at plain
    cases piece with
    | letter => rw [ih plain.2, List.map_cons]
    | _ => exact absurd rfl plain.1

theorem lowerFrom_plain (plain : 'Σ' ∉ cs) (before : List Char) :
    lowerFrom before cs = cs.flatMap lowerPiece := by
  obtain ⟨ps, pieces, lowered⟩ := exists_pieces before cs
  rw [lowered, pieces_eq plain pieces, List.flatMap_def]

/-- Every piece is one character, but for that of a dotted capital i. -/
theorem IsPiece.cases_length {c : Char} {piece : List Char} (h : IsPiece c piece) :
    (c ≠ 'İ' ∧ ∃ x, piece = [x]) ∨ (c = 'İ' ∧ piece = ['i', '\u0307']) := by
  cases h with
  | sigma | finalSigma => exact .inl ⟨by decide, _, rfl⟩
  | letter =>
    by_cases dotted : c = 'İ'
    · exact .inr ⟨dotted, if_pos dotted⟩
    · exact .inl ⟨dotted, _, if_neg dotted⟩

theorem length_flatten_pieces (pieces : Forall₂ IsPiece cs ps) :
    ps.flatten.length = cs.length + cs.count 'İ' := by
  induction pieces with
  | nil => rfl
  | cons piece _ ih =>
    rcases piece.cases_length with ⟨plain, x, rfl⟩ | ⟨rfl, rfl⟩
    · rw [List.count_cons_of_ne plain]
      simp [ih]
      omega
    · simp [ih]
      omega

variable {pattern : List Char}

/-- A pattern that does not start with the dot that a dotted capital i leaves stands where a
piece starts. -/
theorem exists_start (pieces : Forall₂ IsPiece cs ps) (filled : pattern ≠ [])
    (aligned : 'İ' ∉ cs ∨ ¬ ['\u0307'] <+: pattern) {p : Nat}
    (stands : StandsAt pattern ps.flatten p) :
    ∃ i, p = (ps.take i).flatten.length ∧ pattern <+: (ps.drop i).flatten := by
  induction pieces generalizing p with
  | nil => exact absurd (List.prefix_nil.mp (by simpa [StandsAt] using stands)) filled
  | @cons c q cs ps piece _ ih =>
    have tail : 'İ' ∉ cs ∨ ¬ ['\u0307'] <+: pattern :=
      aligned.imp_left fun none mem => none (List.mem_cons_of_mem c mem)
    have later {p : Nat} (rest : StandsAt pattern ps.flatten p) :
        ∃ i, q.length + p = ((q :: ps).take i).flatten.length ∧
          pattern <+: ((q :: ps).drop i).flatten := by
      obtain ⟨i, rfl, found⟩ := ih tail rest
      exact ⟨i + 1, by simp, found⟩
    rcases piece.cases_length with ⟨-, x, rfl⟩ | ⟨rfl, rfl⟩
    · match p with
      | 0 => exact ⟨0, rfl, stands⟩
      | p + 1 => exact Nat.add_comm 1 p ▸ later stands
    · match p with
      | 0 => exact ⟨0, rfl, stands⟩
      | 1 =>
        -- The dot is the second half of a piece.
        refine absurd ?_ (aligned.resolve_left (not_not_intro List.mem_cons_self))
        cases pattern with
        | nil => exact absurd rfl filled
        | cons x rest =>
          rw [(List.cons_prefix_cons.mp stands).1]
          exact ⟨rest, rfl⟩
      | p + 2 => exact Nat.add_comm 2 p ▸ later stands

/-- A pattern that does not end in an i ends where a piece ends, if it starts where one
starts. -/
theorem exists_stop (pieces : Forall₂ IsPiece cs ps)
    (aligned : 'İ' ∉ cs ∨ ¬ ['i'] <:+ pattern) (starts : pattern <+: ps.flatten) :
    ∃ l, pattern = (ps.take l).flatten := by
  induction pieces generalizing pattern with
  | nil => exact ⟨0, List.prefix_nil.mp starts⟩
  | @cons c q cs ps piece _ ih =>
    have later {rest : List Char} (behind : rest <:+ pattern) (starts : rest <+: ps.flatten) :
        ∃ l, q ++ rest = ((q :: ps).take l).flatten := by
      have tail : 'İ' ∉ cs ∨ ¬ ['i'] <:+ rest :=
        aligned.imp (fun none mem => none (List.mem_cons_of_mem c mem))
          fun inside suffix' => inside (suffix'.trans behind)
      obtain ⟨l, rfl⟩ := ih tail starts
      exact ⟨l + 1, by simp⟩
    cases pattern with
    | nil => exact ⟨0, rfl⟩
    | cons x rest =>
      rcases piece.cases_length with ⟨-, y, rfl⟩ | ⟨rfl, rfl⟩
      · obtain ⟨rfl, tail⟩ := List.cons_prefix_cons.mp starts
        exact later (List.suffix_cons x rest) tail
      · obtain ⟨rfl, dot⟩ := List.cons_prefix_cons.mp starts
        cases rest with
        | nil =>
          exact absurd (List.suffix_refl _)
            (aligned.resolve_left (not_not_intro List.mem_cons_self))
        | cons y rest =>
          obtain ⟨rfl, tail⟩ := List.cons_prefix_cons.mp dot
          exact later ((List.suffix_cons _ rest).trans (List.suffix_cons _ _)) tail

/-! ## Occurrences of a text in another, whatever the case -/

/-- Some stretch of the text behind so many characters has the same lower case. -/
def OccursAt (n h : String) (i : Nat) : Prop :=
  ∃ l, lowercase (String.ofList ((h.toList.drop i).take l)) = lowercase n

/-- Lower-casing goes letter by letter, as far as the search for a text can tell: no capital
sigma is looked at, and the two halves of what a dotted capital i becomes are not parted. -/
structure LetterByLetter (n h : String) : Prop where
  sigma : 'Σ' ∉ h.toList ∨ 'σ' ∉ (lowercase n).toList ∧ 'ς' ∉ (lowercase n).toList
  dotted : 'İ' ∉ h.toList ∨
    ¬ ['\u0307'] <+: (lowercase n).toList ∧ ¬ ['i'] <:+ (lowercase n).toList

theorem toList_lowercase (s : String) : (lowercase s).toList = lowerFrom [] s.toList :=
  String.toList_ofList

/-- What of the pieces makes up a text without small sigmas comes from no capital one. -/
theorem sigma_not_mem (pieces : Forall₂ IsPiece cs ps) (small : 'σ' ∉ ps.flatten)
    (final : 'ς' ∉ ps.flatten) : 'Σ' ∉ cs := by
  induction pieces with
  | nil => exact List.not_mem_nil
  | cons piece _ ih =>
    rw [List.flatten_cons, List.mem_append, not_or] at small final
    refine fun mem => ?_
    rcases List.mem_cons.mp mem with rfl | mem
    · cases piece with
      | sigma => exact small.1 (List.mem_singleton_self _)
      | finalSigma => exact final.1 (List.mem_singleton_self _)
      | letter h => exact h rfl
    · exact ih small.2 final.2 mem

/-- An occurrence is a row of pieces that makes up the lower case of what is searched for. -/
theorem occursAt_iff {n h : String} (even : LetterByLetter n h)
    (pieces : Forall₂ IsPiece h.toList ps) {i : Nat} :
    OccursAt n h i ↔ ∃ l, (lowercase n).toList = ((ps.drop i).take l).flatten := by
  refine exists_congr fun l => ?_
  have part := List.forall₂_take l (List.forall₂_drop i pieces)
  generalize stretch : (h.toList.drop i).take l = cs at part ⊢
  generalize (ps.drop i).take l = qs at part ⊢
  have inside : cs ⊆ h.toList :=
    stretch ▸ fun c hc => List.mem_of_mem_drop (List.mem_of_mem_take hc)
  have lowered (plain : 'Σ' ∉ cs) : (lowercase (String.ofList cs)).toList = qs.flatten := by
    rw [toList_lowercase, String.toList_ofList, lowerFrom_plain plain, pieces_eq plain part,
      List.flatMap_def]
  -- Either way the stretch has no capital sigma.
  have plain {qs : List (List Char)} (part : Forall₂ IsPiece cs qs)
      (equal : (lowercase n).toList = qs.flatten) : 'Σ' ∉ cs := by
    rcases even.sigma with none | ⟨small, final⟩
    · exact fun mem => none (inside mem)
    · rw [equal] at small final
      exact sigma_not_mem part small final
  constructor
  · intro same
    obtain ⟨own, ownPart, ownLowered⟩ := exists_pieces [] cs
    have equal : (lowercase n).toList = own.flatten := by
      rw [← ownLowered, ← same, toList_lowercase, String.toList_ofList]
    rw [← same, lowered (plain ownPart equal)]
  · intro equal
    exact String.toList_inj.mp ((lowered (plain part equal)).trans equal.symm)

/-- The place in the lower case of a text of what stands behind so many characters: a dotted
capital i takes two. -/
def place (h : String) (i : Nat) : Nat :=
  i + (h.toList.take i).count 'İ'

theorem place_lt_iff (h : String) {i j : Nat} : place h i < place h j ↔ i < j := by
  have mono {i j : Nat} (le : i ≤ j) : (h.toList.take i).count 'İ' ≤ (h.toList.take j).count 'İ' :=
    (List.take_prefix_take_left le).sublist.count_le _
  unfold place
  constructor
  · intro less
    by_contra le
    have := mono (Nat.le_of_not_lt le)
    omega
  · intro less
    have := mono less.le
    omega

theorem length_take_pieces {s : String} (pieces : Forall₂ IsPiece s.toList ps) {i : Nat}
    (within : i ≤ s.toList.length) : (ps.take i).flatten.length = place s i := by
  rw [length_flatten_pieces (List.forall₂_take i pieces), List.length_take, Nat.min_eq_left within,
    place]

/-- What is searched for stands in the lower case of a text where it occurs in the text. -/
theorem standsAt_iff {n h : String} (even : LetterByLetter n h)
    (filled : (lowercase n).toList ≠ []) {p : Nat} :
    StandsAt (lowercase n).toList (lowercase h).toList p ↔ ∃ i, p = place h i ∧ OccursAt n h i := by
  obtain ⟨ps, pieces, lowered⟩ := exists_pieces [] h.toList
  rw [toList_lowercase h, lowered]
  have counted : ps.length = h.toList.length := pieces.length_eq.symm
  constructor
  · intro stands
    obtain ⟨i, rfl, starts⟩ := exists_start pieces filled (even.dotted.imp_right And.left) stands
    have within : i ≤ h.toList.length := by
      by_contra beyond
      rw [List.drop_eq_nil_of_le (by omega)] at starts
      exact filled (List.prefix_nil.mp starts)
    have rest := List.forall₂_drop i pieces
    obtain ⟨l, equal⟩ := exists_stop rest
      (even.dotted.imp (fun none mem => none (List.mem_of_mem_drop mem)) And.right) starts
    exact ⟨i, length_take_pieces pieces within, (occursAt_iff even pieces).mpr ⟨l, equal⟩⟩
  · rintro ⟨i, rfl, occurs⟩
    obtain ⟨l, equal⟩ := (occursAt_iff even pieces).mp occurs
    have within : i ≤ h.toList.length := by
      by_contra beyond
      rw [List.drop_eq_nil_of_le (by omega)] at equal
      exact filled (by simpa using equal)
    have split : ps.flatten = (ps.take i).flatten ++ (ps.drop i).flatten := by
      rw [← List.flatten_append, List.take_append_drop]
    refine ⟨((ps.drop i).drop l).flatten, ?_⟩
    rw [equal, ← List.flatten_append, List.take_append_drop, ← length_take_pieces pieces within,
      split, List.drop_left]

theorem earliest_standsAt {n h : String} (even : LetterByLetter n h)
    (filled : (lowercase n).toList ≠ []) {i : Nat} (first : Earliest (OccursAt n h) i) :
    Earliest (StandsAt (lowercase n).toList (lowercase h).toList) (place h i) := by
  refine ⟨(standsAt_iff even filled).mpr ⟨i, rfl, first.1⟩, fun p less stands => ?_⟩
  obtain ⟨j, rfl, occurs⟩ := (standsAt_iff even filled).mp stands
  exact first.2 j ((place_lt_iff h).mp less) occurs

theorem lowercase_ne_nil {n : String} (filled : n ≠ "") : (lowercase n).toList ≠ [] := by
  obtain ⟨ps, pieces, lowered⟩ := exists_pieces [] n.toList
  rw [toList_lowercase, lowered, ← List.length_pos_iff, length_flatten_pieces pieces]
  have := List.length_pos_iff.mpr (mt String.toList_eq_nil_iff.mp filled)
  omega

end Text

/-! ## The answer -/

section

open Text

variable {needle : String} {i : Nat}

theorem textOffset_eq_zero_iff (filled : needle.toList ≠ []) (haystack : String) :
    textOffset needle haystack = 0 ↔ ∀ i, ¬ StandsAt needle.toList haystack.toList i := by
  have some : needle.isEmpty = false := by simpa using filled
  rw [textOffset, some, if_neg Bool.false_ne_true, ← findPattern_eq_none_iff 1]
  cases found : findPattern needle.toList 1 haystack.toList with
  | none => simp
  | some k =>
    obtain ⟨i, rfl, -⟩ := findPattern_eq_some_iff.mp found
    simp

theorem textOffset_eq_succ_iff (filled : needle.toList ≠ []) (haystack : String) :
    textOffset needle haystack = i + 1 ↔ Earliest (StandsAt needle.toList haystack.toList) i := by
  have some : needle.isEmpty = false := by simpa using filled
  rw [textOffset, some, if_neg Bool.false_ne_true]
  cases found : findPattern needle.toList 1 haystack.toList with
  | none =>
    have absent := (findPattern_eq_none_iff 1).mp found
    simp [Earliest, absent]
  | some k =>
    obtain ⟨j, rfl, first⟩ := findPattern_eq_some_iff.mp found
    rw [Option.getD_some]
    constructor
    · intro same
      rwa [show i = j by omega]
    · intro other
      rw [other.unique first, Nat.add_comm]

theorem textOffset_le (filled : needle.toList ≠ []) (haystack : String) :
    textOffset needle haystack ≤ haystack.length := by
  cases k : textOffset needle haystack with
  | zero => exact Nat.zero_le _
  | succ i =>
    have stands := ((textOffset_eq_succ_iff filled haystack).mp k).1
    by_contra beyond
    rw [StandsAt, List.drop_eq_nil_of_le (by rw [String.length_toList]; omega)] at stands
    exact filled (List.prefix_nil.mp stands)

end

/-- The answer points at the first occurrence in the text itself, or is 0 if there is none. -/
def PointsInto (n h : String) (k : Int) : Prop :=
  (k = 0 → ∀ i, ¬ Text.OccursAt n h i) ∧
    ∀ i : Nat, k = i + 1 → Earliest (Text.OccursAt n h) i

theorem perform_offset {c : Calls} {m : Machine} {name : String}
    (is : Text.asciiLower name = "offset") (unhosted : m.hosts.lookup "offset" = none)
    (n h : String) : perform (invoke c name #[.text n, .text h]) m =
      (.ok (.ofNat (textOffset (Text.lowercase n) (Text.lowercase h))), m) := by
  have found : Builtin.table.find? name = some (.compute .offset) := by
    rw [MethodTable.find?, is]
    rfl
  rw [invoke, perform_get_bind, is, unhosted]
  dsimp only
  rw [found]
  rfl

/-- The position of a text in another, whatever the case, is that of its first occurrence in
the lower case of the other. Where lower-casing goes letter by letter, this is as much too far
as there are dotted capital i's before the occurrence, and so the answer points into the text
itself exactly if there are none. -/
theorem offset_place {c : Calls} {m : Machine} {name n h : String}
    (is : Text.asciiLower name = "offset") (unhosted : m.hosts.lookup "offset" = none)
    (filled : n ≠ "") (short : (Text.lowercase h).length < 2147483648) :
    ∃ k : Int32, perform (invoke c name #[.text n, .text h]) m = (.ok (.int k), m) ∧
      0 ≤ k.toInt ∧
      (let stands := StandsAt (Text.lowercase n).toList (Text.lowercase h).toList
       (k.toInt = 0 ↔ ∀ i, ¬ stands i) ∧ ∀ i : Nat, k.toInt = i + 1 ↔ Earliest stands i) ∧
      (Text.LetterByLetter n h →
        (k.toInt = 0 ↔ ∀ i, ¬ Text.OccursAt n h i) ∧
        (∀ i, Earliest (Text.OccursAt n h) i →
          k.toInt = i + 1 + (h.toList.take i).count 'İ') ∧
        (PointsInto n h k.toInt ↔
          ∀ i, Earliest (Text.OccursAt n h) i → 'İ' ∉ h.toList.take i)) := by
  have filled := Text.lowercase_ne_nil filled
  have zero := textOffset_eq_zero_iff filled (Text.lowercase h)
  have succ (i : Nat) := textOffset_eq_succ_iff (i := i) filled (Text.lowercase h)
  refine ⟨_, perform_offset is unhosted n h, ?_⟩
  rw [toInt_ofNat (Nat.lt_of_le_of_lt (textOffset_le filled _) short)]
  generalize textOffset (Text.lowercase n) (Text.lowercase h) = k at zero succ ⊢
  refine ⟨Int.natCast_nonneg k, ⟨by simpa using zero, fun i => ?_⟩, fun even => ?_⟩
  · rw [← succ i]
    omega
  have absent : k = 0 ↔ ∀ i, ¬ Text.OccursAt n h i := by
    rw [zero]
    constructor
    · exact fun none i occurs =>
        none _ ((Text.standsAt_iff even filled).mpr ⟨i, rfl, occurs⟩)
    · intro none p stands
      obtain ⟨i, -, occurs⟩ := (Text.standsAt_iff even filled).mp stands
      exact none i occurs
  have first {i : Nat} (occurs : Earliest (Text.OccursAt n h) i) :
      k = i + (h.toList.take i).count 'İ' + 1 :=
    (succ _).mpr (Text.earliest_standsAt even filled occurs)
  refine ⟨by simpa using absent, fun i occurs => ?_, fun points i occurs => ?_, fun none => ?_⟩
  · rw [first occurs]
    omega
  · have reached : (k : Int) = (i + (h.toList.take i).count 'İ' : Nat) + 1 := by
      rw [first occurs]
      rfl
    have same := occurs.unique (points.2 _ reached)
    exact List.count_eq_zero.mp (by omega)
  · refine ⟨fun nothing => absent.mp (by omega), fun i reached => ?_⟩
    obtain ⟨j, occurs⟩ : ∃ j, Earliest (Text.OccursAt n h) j := by
      refine exists_earliest ?_
      by_contra nowhere
      have := absent.mpr (not_exists.mp nowhere)
      omega
    have at_j := first occurs
    rw [List.count_eq_zero.mpr (none j occurs)] at at_j
    rwa [show i = j by omega]

/-- Behind the end of a text nothing occurs. -/
theorem Text.not_occursAt_of_drop {n h : String} {i : Nat} (filled : n ≠ "")
    (ends : h.toList.drop i = []) : ¬ Text.OccursAt n h i := by
  rintro ⟨l, same⟩
  rw [ends, List.take_nil] at same
  exact Text.lowercase_ne_nil filled (by rw [← same]; rfl)

/-- Behind two dotted capital i's, the text is found two places too far. -/
theorem offset_place_dotted :
    let m : Machine := {}
    let n := "B"
    let h := "İİab"
    Text.asciiLower "Offset" = "offset" ∧ m.hosts.lookup "offset" = none ∧ n ≠ "" ∧
    (Text.lowercase h).length < 2147483648 ∧ Text.LetterByLetter n h ∧
    perform (invoke m.calls "Offset" #[.text n, .text h]) m = (.ok (.int 6), m) ∧
    Earliest (StandsAt ['b'] (Text.lowercase h).toList) 5 ∧ Text.OccursAt n h 3 ∧
    ¬ PointsInto n h 6 := by
  intro m n h
  have named : Text.asciiLower "Offset" = "offset" := by decide
  have short : (Text.lowercase h).length < 2147483648 := by decide +kernel
  have even : Text.LetterByLetter n h :=
    ⟨.inl (by decide +kernel), .inr ⟨by decide +kernel, by decide +kernel⟩⟩
  obtain ⟨k, run, -, ⟨-, stands⟩, -⟩ :=
    offset_place (c := m.calls) (m := m) (n := n) (h := h) named rfl (by decide) short
  obtain rfl : k = 6 := by
    rw [perform_offset named rfl, show textOffset (Text.lowercase n) (Text.lowercase h) = 6 from by
      decide +kernel] at run
    exact (Value.int.inj (Except.ok.inj (congrArg Prod.fst run))).symm
  have place : Earliest (StandsAt (Text.lowercase n).toList (Text.lowercase h).toList) 5 :=
    (stands 5).mp rfl
  refine ⟨named, rfl, by decide, short, even, run, ?_, ⟨1, by decide +kernel⟩, fun points => ?_⟩
  · rwa [show (Text.lowercase n).toList = ['b'] from by decide +kernel] at place
  · exact Text.not_occursAt_of_drop (by decide) (by decide) (points.2 5 rfl).1

/-- A letter that does not stand where it is found, and one that is not found where it
stands. -/
theorem offset_misses :
    let m : Machine := {}
    perform (invoke m.calls "offset" #[.text "b", .text "İb"]) m = (.ok (.int 3), m) ∧
    ¬ PointsInto "b" "İb" 3 ∧
    perform (invoke m.calls "offset" #[.text "Σ", .text "ΑΣ"]) m = (.ok (.int 0), m) ∧
    ¬ PointsInto "Σ" "ΑΣ" 0 := by
  intro m
  refine ⟨?_, fun points => ?_, ?_, fun points => ?_⟩
  · rw [perform_offset (by decide) rfl, show textOffset (Text.lowercase "b")
      (Text.lowercase "İb") = 3 from by decide +kernel]
    rfl
  · exact Text.not_occursAt_of_drop (by decide) (by decide) (points.2 2 rfl).1
  · rw [perform_offset (by decide) rfl, show textOffset (Text.lowercase "Σ")
      (Text.lowercase "ΑΣ") = 0 from by decide +kernel]
    rfl
  · exact points.1 rfl 1 ⟨1, by decide +kernel⟩

end Lingo
