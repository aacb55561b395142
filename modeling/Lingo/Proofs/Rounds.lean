import Mathlib.Algebra.Order.Ring.Nat
import Mathlib.Data.String.Basic
import Lingo.Proofs.Relaxation

/-!
# Rounds of widening

The loop that widens the instructions of a handler, taken without a bound on its
rounds: `Loops` says after how many rounds it ends, and with what. A round
computes all arguments for the current sizes (`nextRound`); the loop is over
when an argument cannot be computed or no size changes.

* `loops_settle`: where the sizes settle, the loop ends within the rounds that
  `settle` is given, with the result of `settle`;
* `arguments_error_iff`: the arguments cannot be computed exactly if some label is
  missing, and the first such instruction is reported;
* `layout_ends`: every loop ends, and fails only for a missing label.
-/

namespace Lingo.Layout

/-! ## The loop -/

/-- What a round comes to. -/
inductive Round where
  /-- The loop ends. -/
  | done (result : Except AsmError (List Instruction))
  /-- The loop goes on with wider sizes. -/
  | wider (sizes : List Nat)

/-- One round, for the current sizes. -/
def nextRound (body : List Pending) (labels : Labels) (sizes : List Nat) : Round :=
  match arguments body labels (offsetsFrom 0 sizes) with
  | .error e => .done (.error e)
  | .ok args =>
    if grow body args sizes = sizes then .done (.ok (place body args sizes (offsetsFrom 0 sizes)))
    else .wider (grow body args sizes)

/-- From these sizes on, the loop ends after a number of rounds with a result. -/
inductive Loops (body : List Pending) (labels : Labels) :
    List Nat → Nat → Except AsmError (List Instruction) → Prop
  | last {sizes : List Nat} {result : Except AsmError (List Instruction)}
      (now : nextRound body labels sizes = .done result) : Loops body labels sizes 1 result
  | again {sizes wider : List Nat} {rounds : Nat} {result : Except AsmError (List Instruction)}
      (now : nextRound body labels sizes = .wider wider)
      (later : Loops body labels wider rounds result) : Loops body labels sizes (rounds + 1) result

section

variable {body : List Pending} {labels : Labels}

/-- The loop has one end. -/
theorem Loops.unique {sizes : List Nat} {m n : Nat} {r r' : Except AsmError (List Instruction)}
    (h : Loops body labels sizes m r) (h' : Loops body labels sizes n r') : m = n ∧ r = r' := by
  induction h generalizing n with
  | last now =>
    cases h' with
    | last now' => simp_all
    | again now' _ => simp_all
  | again now _ ih =>
    cases h' with
    | last now' => simp_all
    | again now' later' =>
      obtain rfl := Round.wider.inj (now.symm.trans now')
      have same := ih later'
      simp [same]

theorem round_error {sizes : List Nat} {e : AsmError}
    (h : arguments body labels (offsetsFrom 0 sizes) = .error e) :
    nextRound body labels sizes = .done (.error e) := by
  simp [nextRound, h]

theorem settle_error {sizes : List Nat} {e : AsmError} (rounds : Nat)
    (h : arguments body labels (offsetsFrom 0 sizes) = .error e) :
    settle body labels rounds sizes = .error e := by
  rw [settle.eq_def]
  simp [h]

variable (bounded : ∀ name target, labels.lookup name = some target → target ≤ body.length)
  (resolves : Resolves body labels)
include bounded resolves

/-- Where all labels are defined, a round widens the resolved instructions. -/
theorem round_eq {sizes : List Nat} (hs : sizes.length = body.length) :
    nextRound body labels sizes =
      if widen (items body labels) sizes = sizes then .done (.ok (placed (items body labels) sizes))
      else .wider (widen (items body labels) sizes) := by
  simp only [nextRound, arguments_eq bounded resolves hs, grow_eq, place_eq hs]

/-- If the sizes settle within some rounds, the loop ends within one more, which is the
round that finds them settled. -/
theorem loops_settle (rounds : Nat) {sizes : List Nat} (hs : sizes.length = body.length)
    (settled : widen (items body labels) (relax (items body labels) rounds sizes) =
      relax (items body labels) rounds sizes) :
    ∃ n ≤ rounds + 1, Loops body labels sizes n (settle body labels rounds sizes) := by
  induction rounds generalizing sizes with
  | zero =>
    have same : relax (items body labels) 0 sizes = sizes := by simp [relax]
    rw [same] at settled
    refine ⟨1, by omega, .last ?_⟩
    rw [round_eq bounded resolves hs, if_pos settled, settle_eq bounded resolves 0 hs, same]
  | succ rounds ih =>
    by_cases fits : widen (items body labels) sizes = sizes
    · have same : relax (items body labels) (rounds + 1) sizes = sizes := by simp [relax, fits]
      refine ⟨1, by omega, .last ?_⟩
      rw [round_eq bounded resolves hs, if_pos fits, settle_eq bounded resolves _ hs, same]
    · have next : relax (items body labels) (rounds + 1) sizes =
          relax (items body labels) rounds (widen (items body labels) sizes) := by
        rw [relax, if_neg fits]
      have wider : (widen (items body labels) sizes).length = body.length := by
        simp [widen, needs, items, hs]
      rw [next] at settled
      obtain ⟨n, few, loops⟩ := ih wider settled
      have now : nextRound body labels sizes = .wider (widen (items body labels) sizes) := by
        rw [round_eq bounded resolves hs, if_neg fits]
      refine ⟨n + 1, by omega, .again now ?_⟩
      rwa [settle_eq bounded resolves _ hs, next, ← settle_eq bounded resolves _ wider]

end

/-! ## Missing labels -/

/-- The fault of an instruction whose operand names a label that is not in the
table. -/
def missing? (labels : Labels) (p : Pending) : Option AsmError :=
  match p.operand with
  | .label name =>
    if (labels.lookup name).isSome then none else some ⟨p.line, .undefinedLabel name⟩
  | _ => none

theorem missing?_eq_some_iff {labels : Labels} {p : Pending} {e : AsmError} :
    missing? labels p = some e ↔
      ∃ name, p.operand = .label name ∧ labels.lookup name = none ∧
        e = ⟨p.line, .undefinedLabel name⟩ := by
  unfold missing?
  cases p.operand with
  | label name => cases hl : labels.lookup name <;> simp [-List.lookup_eq_none_iff, hl, @eq_comm _ e]
  | _ => simp

theorem missing?_eq_none_iff {labels : Labels} {p : Pending} :
    missing? labels p = none ↔ ∀ name, p.operand = .label name → (labels.lookup name).isSome := by
  unfold missing?
  cases p.operand <;> simp

theorem argument_error_iff {labels : Labels} {offsets : Array Nat} {p : Pending} {start : Nat}
    {e : AsmError} :
    argument labels offsets p start = .error e ↔ missing? labels p = some e := by
  rw [missing?_eq_some_iff]
  unfold argument
  cases p.operand with
  | label name => cases hl : labels.lookup name <;> simp [-List.lookup_eq_none_iff, hl, @eq_comm _ e]
  | _ => simp

/-- A list of results fails with the first of its errors. -/
theorem mapM_error_iff {α β ε : Type} {f : α → Except ε β} {fault : α → Option ε}
    (hf : ∀ x e, f x = .error e ↔ fault x = some e) {xs : List α} {e : ε} :
    xs.mapM f = .error e ↔ xs.findSome? fault = some e := by
  induction xs with
  | nil => simp [pure, Except.pure]
  | cons x xs ih =>
    rw [List.mapM_cons]
    cases hx : f x with
    | error e' => simp [bind, Except.bind, (hf x e').mp hx]
    | ok y =>
      have none : fault x = none := by
        cases h : fault x with
        | none => rfl
        | some e' => simp [(hf x e').mpr h] at hx
      rw [List.findSome?_cons_of_isNone (by simp [none]), ← ih]
      cases xs.mapM f <;> simp [bind, Except.bind, pure, Except.pure]

/-- The arguments cannot be computed exactly if some label is missing; the first
instruction that names such a label is to blame, whatever the offsets are. -/
theorem arguments_error_iff {body : List Pending} {labels : Labels} {offsets : List Nat}
    (long : body.length ≤ offsets.length) {e : AsmError} :
    arguments body labels offsets = .error e ↔ body.findSome? (missing? labels) = some e := by
  have fault : ∀ (x : Pending × Nat) (e : AsmError),
      argument labels offsets.toArray x.1 x.2 = .error e ↔ missing? labels x.1 = some e :=
    fun _ _ => argument_error_iff
  have whole : body = (body.zip offsets).map Prod.fst := (List.map_fst_zip long).symm
  conv_rhs => rw [whole, List.findSome?_map]
  exact mapM_error_iff fault

theorem resolves_of_findSome? {body : List Pending} {labels : Labels}
    (h : body.findSome? (missing? labels) = none) : Resolves body labels :=
  fun p hp => missing?_eq_none_iff.mp (List.findSome?_eq_none_iff.mp h p hp)

/-! ## Layouts -/

/-- A body whose labels lead to its instructions is laid out, or the first instruction
with a missing label is reported. -/
theorem layout_error_iff {body : List Pending} {labels : Labels}
    (bounded : ∀ name target, labels.lookup name = some target → target ≤ body.length)
    {e : AsmError} :
    layout body labels = .error e ↔ body.findSome? (missing? labels) = some e := by
  have long : body.length ≤ (offsetsFrom 0 (body.map leastSize)).length := by
    simp [length_offsetsFrom]
  cases hm : body.findSome? (missing? labels) with
  | some e' =>
    have failed := settle_error (3 * body.length) ((arguments_error_iff long).mpr hm)
    rw [layout, failed, Except.error.injEq, Option.some.injEq]
  | none =>
    rw [layout_eq bounded (resolves_of_findSome? hm)]
    simp

/-- The loop from the least sizes on ends within the rounds that `layout` allows. -/
theorem loops_layout {body : List Pending} {labels : Labels}
    (bounded : ∀ name target, labels.lookup name = some target → target ≤ body.length) :
    ∃ n ≤ 3 * body.length + 1, Loops body labels (body.map leastSize) n (layout body labels) := by
  have long : body.length ≤ (offsetsFrom 0 (body.map leastSize)).length := by
    simp [length_offsetsFrom]
  cases hm : body.findSome? (missing? labels) with
  | some e =>
    have failed := (arguments_error_iff long).mpr hm
    refine ⟨1, by omega, ?_⟩
    rw [layout, settle_error _ failed]
    exact .last (round_error failed)
  | none =>
    refine loops_settle bounded (resolves_of_findSome? hm) _ (List.length_map _) ?_
    have settled := settledSizes_settled (items body labels)
    rwa [settledSizes, ← map_leastSize, items, List.length_map] at settled

/-- Whatever the body and the table of labels, as long as these lead to its
instructions or its end: the loop ends after at most three rounds for each
instruction and one more, with the result of `layout`; it fails exactly if some
operand names a missing label, and then reports the line and the label of the
first such instruction. -/
theorem layout_ends (body : List Pending) (labels : Labels)
    (bounded : ∀ name target, labels.lookup name = some target → target ≤ body.length) :
    (∃ n ≤ 3 * body.length + 1, Loops body labels (body.map leastSize) n (layout body labels)) ∧
      (∀ n result, Loops body labels (body.map leastSize) n result →
        n ≤ 3 * body.length + 1 ∧ result = layout body labels) ∧
      ((∃ e, layout body labels = .error e) ↔
        ∃ p ∈ body, ∃ name, p.operand = .label name ∧ labels.lookup name = none) ∧
      ∀ e, layout body labels = .error e →
        ∃ before p after name, body = before ++ p :: after ∧
          p.operand = .label name ∧ labels.lookup name = none ∧
          (∀ q ∈ before, ∀ other, q.operand = .label other → (labels.lookup other).isSome) ∧
          e = ⟨p.line, .undefinedLabel name⟩ := by
  obtain ⟨n, few, loops⟩ := loops_layout bounded
  refine ⟨⟨n, few, loops⟩, fun n' result loops' => ?_, ?_, fun e failed => ?_⟩
  · obtain ⟨rfl, rfl⟩ := loops.unique loops'
    exact ⟨few, rfl⟩
  · constructor
    · rintro ⟨e, failed⟩
      obtain ⟨p, hp, missing⟩ :=
        List.exists_of_findSome?_eq_some ((layout_error_iff bounded).mp failed)
      obtain ⟨name, operand, none, -⟩ := missing?_eq_some_iff.mp missing
      exact ⟨p, hp, name, operand, none⟩
    · rintro ⟨p, hp, name, operand, none⟩
      have missing := missing?_eq_some_iff.mpr ⟨name, operand, none, rfl⟩
      have found : (body.findSome? (missing? labels)).isSome :=
        List.findSome?_isSome_iff.mpr ⟨p, hp, by simp [missing]⟩
      obtain ⟨e, he⟩ := Option.isSome_iff_exists.mp found
      exact ⟨e, (layout_error_iff bounded).mpr he⟩
  · obtain ⟨before, p, after, split, missing, fine⟩ :=
      List.findSome?_eq_some_iff.mp ((layout_error_iff bounded).mp failed)
    obtain ⟨name, operand, none, rfl⟩ := missing?_eq_some_iff.mp missing
    exact ⟨before, p, after, name, split, operand, none,
      fun q hq => missing?_eq_none_iff.mp (fine q hq), rfl⟩

/-- A jump over so many instructions that its argument takes two bytes. -/
def longJump : List Pending :=
  ⟨1, .jmp, .label "end"⟩ :: List.replicate 90 ⟨2, .pushInt16, .value 1000⟩

/-- The long jump is widened in some round, and its label is found. -/
theorem layout_ends_long_jump :
    (∃ n ≤ 274, Loops longJump [("end", 91)] (longJump.map leastSize) n
        (layout longJump [("end", 91)])) ∧
      ∀ e, layout longJump [("end", 91)] ≠ .error e := by
  have bounded : ∀ name target, List.lookup name [("end", 91)] = some target →
      target ≤ longJump.length := by
    intro name target h
    obtain ⟨before, after, split, -⟩ := List.lookup_eq_some_iff.mp h
    have mem : (name, target) ∈ [("end", 91)] := by simp [split]
    have same := (Prod.mk.inj (List.mem_singleton.mp mem)).2
    simp [longJump, same]
  obtain ⟨ends, -, fails, -⟩ := layout_ends longJump [("end", 91)] bounded
  refine ⟨ends, fun e failed => ?_⟩
  obtain ⟨p, hp, name, operand, none⟩ := fails.mp ⟨e, failed⟩
  rcases List.mem_cons.mp hp with rfl | hp
  · cases operand
    simp at none
  · rw [List.eq_of_mem_replicate hp] at operand
    cases operand

end Lingo.Layout
