import Mathlib.Data.List.Infix
import Lingo.Proofs.Rejoining
import Lingo.Proofs.Segments

/-!
# The line terminator of joined lines

The line terminator is looked for in each text anew, CR LF before LF before CR, so that
a change of one line may give the text another one. `Foremost d cs` says that `cs` has
none that goes before `d`; for lines joined with `d` it is decided line by line
(`foremost_joined`). From this:

* `foremost_of_splits`: the lines of a text leave its terminator foremost;
* `splits_lines`: lines that do so are the lines of the text they are joined to;
* `lineDelimiter_append`: a text without terminators behind another changes nothing.
-/

namespace Lingo

/-- There is no character of a terminator. -/
def NoBreak (cs : List Char) : Prop :=
  '\r' ∉ cs ∧ '\n' ∉ cs

instance (cs : List Char) : Decidable (NoBreak cs) :=
  inferInstanceAs (Decidable (_ ∧ _))

theorem noBreak_nil : NoBreak [] :=
  ⟨List.not_mem_nil, List.not_mem_nil⟩

/-! ## Which terminator is found -/

theorem occursIn_iff (pattern cs : List Char) : occursIn pattern cs = true ↔ pattern <:+: cs := by
  induction cs with
  | nil => rw [occursIn, List.isEmpty_iff, List.infix_nil]
  | cons c cs ih =>
    rw [occursIn, Bool.or_eq_true, List.isPrefixOf_iff_prefix, ih, List.infix_cons_iff]

/-- CR LF is found across the border of two texts only if CR stands before it and LF
behind. -/
theorem crlf_infix_append {xs ys : List Char} (h : ¬ (['\r'] <:+ xs ∧ ['\n'] <+: ys)) :
    ['\r', '\n'] <:+: xs ++ ys ↔ ['\r', '\n'] <:+: xs ∨ ['\r', '\n'] <:+: ys := by
  rw [List.infix_append_iff_ne_nil]
  refine or_congr_right (or_iff_left ?_)
  rintro ⟨first, second, hf, hs, split, ends, begins⟩
  match first, second, split with
  | [_], [_], rfl => exact h ⟨ends, begins⟩
  | _ :: _ :: _ :: _, _, split => cases split
  | [_, _], _ :: _, split => cases split

/-- No terminator is found that goes before `d`. -/
def Foremost (d cs : List Char) : Prop :=
  (d = ['\n'] → ¬ ['\r', '\n'] <:+: cs) ∧ (d = ['\r'] → '\n' ∉ cs)

variable {d : List Char}

theorem lineDelimiter_eq_iff (hd : d = ['\r', '\n'] ∨ d = ['\n'] ∨ d = ['\r']) (cs : List Char) :
    lineDelimiter cs = d ↔ Foremost d cs ∧ (d = ['\r'] ∨ d <:+: cs) := by
  have lf (both : ['\r', '\n'] <:+: cs) : '\n' ∈ cs := both.subset (by decide)
  by_cases both : ['\r', '\n'] <:+: cs <;> by_cases feed : '\n' ∈ cs <;>
    rcases hd with rfl | rfl | rfl <;>
    simp_all [lineDelimiter, occursIn_iff, Foremost, List.singleton_infix_iff]

theorem foremost_lineDelimiter (cs : List Char) : Foremost (lineDelimiter cs) cs :=
  ((lineDelimiter_eq_iff (lineDelimiter_cases cs) cs).mp rfl).1

theorem foremost_of_noBreak {cs : List Char} (h : NoBreak cs) : Foremost d cs :=
  ⟨fun _ both => h.2 (both.subset (by decide)), fun _ => h.2⟩

/-! ## Joined lines -/

section Joined

variable (hd : d = ['\r', '\n'] ∨ d = ['\n'] ∨ d = ['\r'])
include hd

/-- A terminator parts a text in which it is foremost. -/
theorem foremost_append (xs ys : List Char) :
    Foremost d (xs ++ d ++ ys) ↔ Foremost d (xs ++ d) ∧ Foremost d ys := by
  rcases hd with rfl | rfl | rfl
  · simp [Foremost]
  · have apart : ¬ (['\r'] <:+ xs ++ ['\n'] ∧ ['\n'] <+: ys) := by
      rintro ⟨⟨before, split⟩, -⟩
      cases List.append_inj_right' split rfl
    simp only [Foremost, crlf_infix_append apart, not_or, forall_const, List.cons.injEq,
      Char.reduceEq, IsEmpty.forall_iff, and_true]
  · simp [Foremost]

theorem foremost_joined (xs : List (List Char)) (y : List Char) :
    Foremost d (xs.flatMap (· ++ d) ++ y) ↔ (∀ x ∈ xs, Foremost d (x ++ d)) ∧ Foremost d y := by
  induction xs with
  | nil => simp
  | cons x xs ih =>
    rw [List.flatMap_cons, List.append_assoc, foremost_append hd, ih, List.forall_mem_cons,
      and_assoc]

/-- A terminator behind a line gives way to CR LF only if it is LF and the line ends with
CR. -/
theorem foremost_line {x : List Char} (h : Foremost d x) (ends : d = ['\n'] → ¬ ['\r'] <:+ x) :
    Foremost d (x ++ d) := by
  rcases hd with rfl | rfl | rfl
  · simp [Foremost]
  · have apart : ¬ (['\r'] <:+ x ∧ ['\n'] <+: ['\n']) := fun both => ends rfl both.1
    have short : ¬ ['\r', '\n'] <:+: ['\n'] := by decide
    simp [Foremost, crlf_infix_append apart, short, h.1 rfl]
  · simp [Foremost, h.2 rfl]

theorem foremost_line_of_noBreak {x : List Char} (h : NoBreak x) : Foremost d (x ++ d) :=
  foremost_line hd (foremost_of_noBreak h) fun _ ends => h.1 (ends.subset (by decide))

theorem not_infix_of_noBreak {x : List Char} (h : NoBreak x) : ¬ d <:+: x := by
  rcases hd with rfl | rfl | rfl
  · exact fun found => h.1 (found.subset (by decide))
  · exact fun found => h.2 (found.subset (by decide))
  · exact fun found => h.1 (found.subset (by decide))

/-- Lines before which no terminator goes, without the terminator in them, are the lines
of the text they are joined to. A line that is alone has no terminator that would tell. -/
theorem splits_lines {xs : List (List Char)} {y : List Char}
    (lines : ∀ x ∈ xs, ¬ d <:+: x ∧ Foremost d (x ++ d)) (last : ¬ d <:+: y ∧ Foremost d y)
    (alone : xs = [] → NoBreak y) :
    Splits (lineDelimiter (d.intercalate (xs ++ [y]))) (d.intercalate (xs ++ [y])) (xs ++ [y]) := by
  rcases eq_or_ne xs [] with rfl | several
  · rw [List.nil_append, List.intercalate_singleton]
    exact .last (not_infix_of_noBreak (lineDelimiter_cases y) (alone rfl))
  have found : d <:+: d.intercalate (xs ++ [y]) := by
    rw [intercalate_append_behind several, List.flatMap_singleton]
    exact ⟨_, _, (List.append_assoc _ _ _)⟩
  have same : lineDelimiter (d.intercalate (xs ++ [y])) = d := by
    refine (lineDelimiter_eq_iff hd _).mpr ⟨?_, .inr found⟩
    rw [intercalate_concat, foremost_joined hd]
    exact ⟨fun x hx => (lines x hx).2, last.2⟩
  rw [same]
  have whole : Unbordered d := same ▸ lineDelimiter_apart _
  refine splits_intercalate whole (List.concat_ne_nil _ _) fun piece hp => ?_
  rcases List.mem_append.mp hp with hx | hy
  · exact (lines piece hx).1
  · exact List.mem_singleton.mp hy ▸ last.1

end Joined

/-- The lines of a text leave its terminator foremost. -/
theorem foremost_of_splits {cs y : List Char} {xs : List (List Char)}
    (h : Splits (lineDelimiter cs) cs (xs ++ [y])) :
    (∀ x ∈ xs, Foremost (lineDelimiter cs) (x ++ lineDelimiter cs)) ∧
      Foremost (lineDelimiter cs) y := by
  have joined := h.joined
  rw [intercalate_concat] at joined
  rw [← foremost_joined (lineDelimiter_cases cs), joined]
  exact foremost_lineDelimiter cs

/-- A text without terminators behind another leaves it its terminator. -/
theorem lineDelimiter_append (cs : List Char) {text : List Char} (h : NoBreak text) :
    lineDelimiter (cs ++ text) = lineDelimiter cs := by
  have apart : ¬ (['\r'] <:+ cs ∧ ['\n'] <+: text) := fun both => h.2 (both.2.subset (by decide))
  have both : ['\r', '\n'] <:+: cs ++ text ↔ ['\r', '\n'] <:+: cs := by
    rw [crlf_infix_append apart]
    exact or_iff_left (not_infix_of_noBreak (.inl rfl) h)
  simp [lineDelimiter, occursIn_iff, both, h.2]

end Lingo
