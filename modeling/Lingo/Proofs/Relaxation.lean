import Mathlib.Algebra.Order.Ring.Nat
import Mathlib.Data.Nat.SuccPred
import Mathlib.Order.Lattice.Nat
import Lingo.Assembly.Layout
import Lingo.Proofs.Encoding

/-!
# Sizes of instructions

How `layout` comes to the sizes of a handler's instructions. Labels are resolved
first (`Layout.Item`), so that a body is a list of operations with numbers or
with indices of instructions (`layout_eq`); what is laid out then depends on
nothing else.

The sizes that the arguments need (`needs`) are monotone in the sizes that the
arguments are computed from, since a distance grows with what it spans and keeps
its sign (`needs_mono`). Widening starts with the least sizes, which are below
their needs, and stays there (`relax_rising`); so it repeats `needs` until nothing
changes (`relax_settled`), and in the end no instruction is wider than it must
be:

* `layout_keeps`: laying out neither drops nor exchanges instructions;
* `settledSizes_exact`: the sizes are those that the arguments need;
* `laidOut_narrow`: the code is that of the narrowest encodings.
-/

namespace Lingo.Layout

/-! ## Resolved bodies -/

/-- An argument whose label, if it is one, is resolved to the index of the
instruction that it stands before. -/
inductive Resolved where
  | value (n : Int32)
  | index (target : Nat)
  deriving DecidableEq

/-- An instruction with its argument resolved. -/
abbrev Item := Opcode × Resolved

/-- The operand with its label looked up. -/
def resolve (labels : Labels) : Operand → Resolved
  | .absent => .value 0
  | .value n => .value n
  | .label name => .index ((labels.lookup name).getD 0)

/-- The instructions of a body with their arguments resolved. -/
def items (body : List Pending) (labels : Labels) : List Item :=
  body.map fun p => (p.opcode, resolve labels p.operand)

/-- Every label that the body mentions is defined. -/
def Resolves (body : List Pending) (labels : Labels) : Prop :=
  ∀ p ∈ body, ∀ name, p.operand = .label name → (labels.lookup name).isSome

/-- Where an instruction starts, for given sizes; the end of the last one counts
as a start. -/
def start (sizes : List Nat) (i : Nat) : Nat :=
  (sizes.take i).sum

/-- The argument of the instruction at an index, for given sizes. -/
def Resolved.argument (op : Opcode) (sizes : List Nat) (i : Nat) : Resolved → Int32
  | value n => n
  | index target => distance op (start sizes i) (start sizes target)

/-- The arguments of all instructions, for given sizes. -/
def argumentsFor (items : List Item) (sizes : List Nat) : List Int32 :=
  items.mapIdx fun i item => item.2.argument item.1 sizes i

/-- The size that an instruction has at least. -/
def least (item : Item) : Nat :=
  size item.1 (match item.2 with | .value n => n | .index _ => 0)

/-- The sizes that the arguments need which come of given sizes. -/
def needs (items : List Item) (sizes : List Nat) : List Nat :=
  items.mapIdx fun i item => size item.1 (item.2.argument item.1 sizes i)

/-- The sizes after one round. -/
def widen (items : List Item) (sizes : List Nat) : List Nat :=
  List.zipWith max (needs items sizes) sizes

/-- Widens instructions for up to `rounds` rounds. -/
def relax (items : List Item) : Nat → List Nat → List Nat
  | rounds, sizes =>
    if widen items sizes = sizes then sizes
    else
      match rounds with
      | 0 => sizes
      | rounds + 1 => relax items rounds (widen items sizes)

/-- The instructions of given sizes. -/
def placed (items : List Item) (sizes : List Nat) : List Instruction :=
  items.mapIdx fun i item =>
    ⟨start sizes i, item.1, item.1.byteFor (sizes.getD i 0 - 1), item.2.argument item.1 sizes i⟩

/-- The sizes that a body settles on. -/
def settledSizes (items : List Item) : List Nat :=
  relax items (3 * items.length) (items.map least)

/-- The instructions of a body. -/
def laidOut (items : List Item) : List Instruction :=
  placed items (settledSizes items)

/-! ## Starts -/

theorem start_succ {sizes : List Nat} {i : Nat} (h : i < sizes.length) :
    start sizes (i + 1) = start sizes i + sizes[i] := by
  rw [start, start, List.take_succ_eq_append_getElem h, List.sum_append, List.sum_singleton]

theorem getElem?_offsetsFrom (pos : Nat) (sizes : List Nat) (k : Nat) :
    (offsetsFrom pos sizes)[k]? = if k ≤ sizes.length then some (pos + start sizes k) else none := by
  induction sizes generalizing pos k with
  | nil => cases k <;> simp [offsetsFrom, start]
  | cons s rest ih =>
    cases k with
    | zero => simp [offsetsFrom, start]
    | succ k => simp [offsetsFrom, ih, start, Nat.add_assoc]

theorem length_offsetsFrom (pos : Nat) (sizes : List Nat) :
    (offsetsFrom pos sizes).length = sizes.length + 1 := by
  induction sizes generalizing pos with
  | nil => rfl
  | cons s rest ih => rw [offsetsFrom, List.length_cons, ih, List.length_cons]

theorem getElem_offsetsFrom {sizes : List Nat} {i : Nat} (inside : i < (offsetsFrom 0 sizes).length) :
    (offsetsFrom 0 sizes)[i] = start sizes i := by
  have offset := getElem?_offsetsFrom 0 sizes i
  rw [length_offsetsFrom] at inside
  rw [if_pos (Nat.le_of_lt_succ inside), Nat.zero_add] at offset
  exact (List.getElem?_eq_some_iff.mp offset).2

/-! ## Layout of resolved bodies -/

section

variable {α β ε : Type}

/-- A list of results is the list of what each gives. -/
theorem mapM_ok_iff {f : α → Except ε β} {xs : List α} {ys : List β} :
    xs.mapM f = .ok ys ↔ List.Forall₂ (fun x y => f x = .ok y) xs ys := by
  induction xs generalizing ys with
  | nil =>
    rw [List.mapM_nil, List.forall₂_nil_left_iff]
    exact ⟨fun h => (Except.ok.inj h).symm, fun h => congrArg Except.ok h.symm⟩
  | cons x xs ih =>
    rw [List.mapM_cons, List.forall₂_cons_left_iff]
    cases hx : f x with
    | error e =>
      constructor
      · intro h
        cases h
      · rintro ⟨_, _, h, _⟩
        cases h
    | ok y =>
      cases hxs : xs.mapM f with
      | error e =>
        constructor
        · intro h
          cases h
        · rintro ⟨_, zs, _, hz, _⟩
          rw [ih.mpr hz] at hxs
          cases hxs
      | ok zs =>
        constructor
        · rintro ⟨⟩
          exact ⟨y, zs, rfl, ih.mp hxs, rfl⟩
        · rintro ⟨_, zs', h, hz, rfl⟩
          rw [ih.mpr hz] at hxs
          cases h
          cases hxs
          rfl

end

section

variable {body : List Pending} {labels : Labels}
  (bounded : ∀ name target, labels.lookup name = some target → target ≤ body.length)

theorem argument_ok {p : Pending} {offsets : Array Nat} {pos : Nat} {n : Int32}
    (h : argument labels offsets p pos = .ok n) (name : String) (hp : p.operand = .label name) :
    (labels.lookup name).isSome := by
  unfold argument at h
  rw [hp] at h
  cases hl : labels.lookup name with
  | some _ => rfl
  | none => simp [hl] at h

theorem resolves_of_arguments {offsets : List Nat} {args : List Int32}
    (long : body.length ≤ offsets.length) (h : arguments body labels offsets = .ok args) :
    Resolves body labels := by
  intro p hp name hn
  obtain ⟨i, hi, rfl⟩ := List.getElem_of_mem hp
  have all := mapM_ok_iff.mp h
  have hz : i < (body.zip offsets).length := by rw [List.length_zip]; omega
  have here := all.get hz (by rw [← all.length_eq]; exact hz)
  simp only [List.get_eq_getElem, List.getElem_zip] at here
  exact argument_ok here name hn

include bounded

theorem argument_eq (resolves : Resolves body labels) {sizes : List Nat}
    (hs : sizes.length = body.length) {i : Nat} (hi : i < body.length) :
    argument labels (offsetsFrom 0 sizes).toArray body[i] (start sizes i) =
      .ok ((resolve labels body[i].operand).argument body[i].opcode sizes i) := by
  unfold argument
  cases ho : body[i].operand with
  | absent => rfl
  | value n => rfl
  | label name =>
    obtain ⟨target, ht⟩ := Option.isSome_iff_exists.mp (resolves _ (List.getElem_mem hi) name ho)
    have le : target ≤ sizes.length := hs ▸ bounded name target ht
    simp only [ht, List.getElem?_toArray, getElem?_offsetsFrom, le, if_true, Option.getD_some,
      Nat.zero_add, resolve, Resolved.argument]

theorem arguments_eq (resolves : Resolves body labels) {sizes : List Nat}
    (hs : sizes.length = body.length) :
    arguments body labels (offsetsFrom 0 sizes) = .ok (argumentsFor (items body labels) sizes) := by
  have long := length_offsetsFrom 0 sizes
  refine mapM_ok_iff.mpr (List.forall₂_iff_get.mpr ⟨?_, fun i h₁ h₂ => ?_⟩)
  · simp [argumentsFor, items, List.length_zip]
    omega
  · have hi : i < body.length := by
      rw [List.length_zip] at h₁
      omega
    have here := getElem_offsetsFrom (show i < (offsetsFrom 0 sizes).length by omega)
    simp only [List.get_eq_getElem, List.getElem_zip, here, argumentsFor, items,
      List.getElem_mapIdx, List.getElem_map]
    exact argument_eq bounded resolves hs hi

omit bounded in
theorem grow_eq {sizes : List Nat} :
    grow body (argumentsFor (items body labels) sizes) sizes =
      widen (items body labels) sizes := by
  refine List.ext_getElem ?_ fun i h₁ h₂ => ?_
  · simp [grow, argumentsFor, items, widen, needs]
  · simp [grow, argumentsFor, items, widen, needs]

omit bounded in
theorem place_eq {sizes : List Nat} (hs : sizes.length = body.length) :
    place body (argumentsFor (items body labels) sizes) sizes (offsetsFrom 0 sizes) =
      placed (items body labels) sizes := by
  have long := length_offsetsFrom 0 sizes
  refine List.ext_getElem ?_ fun i h₁ h₂ => ?_
  · simp [place, argumentsFor, items, placed]
    omega
  · have hi : i < body.length := by simpa [placed, items] using h₂
    have here := getElem_offsetsFrom (show i < (offsetsFrom 0 sizes).length by omega)
    simp [place, argumentsFor, items, placed, here, List.getD_eq_getElem?_getD, hs, hi]

theorem settle_eq (resolves : Resolves body labels) (rounds : Nat) {sizes : List Nat}
    (hs : sizes.length = body.length) :
    settle body labels rounds sizes =
      .ok (placed (items body labels) (relax (items body labels) rounds sizes)) := by
  induction rounds generalizing sizes with
  | zero =>
    rw [settle, relax]
    simp only [arguments_eq bounded resolves hs, grow_eq, place_eq hs, beq_iff_eq, ite_self]
  | succ rounds ih =>
    rw [settle, relax]
    simp only [arguments_eq bounded resolves hs, grow_eq, place_eq hs, beq_iff_eq]
    split
    · rfl
    · exact ih (by simp [widen, needs, items, hs])

omit bounded in
theorem map_leastSize (body : List Pending) (labels : Labels) :
    body.map leastSize = (items body labels).map least := by
  rw [items, List.map_map]
  refine List.map_congr_left fun p _ => ?_
  simp only [leastSize, least, Function.comp_apply]
  cases p.operand <;> rfl

/-- A body is laid out as its resolved instructions are. -/
theorem layout_eq (resolves : Resolves body labels) :
    layout body labels = .ok (laidOut (items body labels)) := by
  rw [layout, map_leastSize body labels, settle_eq bounded resolves _ (by simp [items])]
  simp only [laidOut, settledSizes, items, List.length_map]

omit bounded in
theorem resolves_of_layout {code : List Instruction} (h : layout body labels = .ok code) :
    Resolves body labels := by
  rw [layout, settle] at h
  cases ha : arguments body labels (offsetsFrom 0 (body.map leastSize)) with
  | error e => simp [ha] at h
  | ok args =>
    refine resolves_of_arguments ?_ ha
    rw [length_offsetsFrom, List.length_map]
    exact Nat.le_succ _

end

/-! ## Order of instructions -/

/-- An instruction is laid out as the same operation, and with the same argument if
that is a number. -/
structure Keeps (p : Pending) (i : Instruction) : Prop where
  opcode : i.opcode = p.opcode
  argument : ∀ n, p.operand = .value n → i.argument = n

theorem place_keeps {body : List Pending} {labels : Labels} {args : List Int32} {sizes : List Nat}
    (hsizes : sizes.length = body.length)
    (ha : arguments body labels (offsetsFrom 0 sizes) = .ok args) :
    List.Forall₂ Keeps body (place body args sizes (offsetsFrom 0 sizes)) := by
  have long := length_offsetsFrom 0 sizes
  have all := mapM_ok_iff.mp ha
  have hargs := all.length_eq
  rw [List.length_zip] at hargs
  have hplace : (place body args sizes (offsetsFrom 0 sizes)).length = body.length := by
    simp only [place, List.length_map, List.length_zip]
    omega
  refine List.forall₂_iff_get.mpr ⟨hplace.symm, fun i h₁ h₂ => ⟨by simp [place], fun n value => ?_⟩⟩
  have hz : i < (body.zip (offsetsFrom 0 sizes)).length := by rw [List.length_zip]; omega
  have here := all.get hz (by omega)
  simp only [List.get_eq_getElem, List.getElem_zip, argument] at here value
  rw [value] at here
  simp only [place, List.get_eq_getElem, List.getElem_map, List.getElem_zip]
  exact (Except.ok.inj here).symm

theorem settle_keeps {body : List Pending} {labels : Labels} (rounds : Nat) {sizes : List Nat}
    (hsizes : sizes.length = body.length) {code : List Instruction}
    (h : settle body labels rounds sizes = .ok code) : List.Forall₂ Keeps body code := by
  induction rounds generalizing sizes with
  | zero =>
    rw [settle] at h
    dsimp only at h
    split at h
    · cases h
    · rename_i args ha
      rw [ite_self] at h
      cases h
      exact place_keeps hsizes ha
  | succ rounds ih =>
    rw [settle] at h
    dsimp only at h
    split at h
    · cases h
    · rename_i args ha
      split at h
      · cases h
        exact place_keeps hsizes ha
      · have long := length_offsetsFrom 0 sizes
        have hargs := (mapM_ok_iff.mp ha).length_eq
        rw [List.length_zip] at hargs
        have hgrown : (grow body args sizes).length = body.length := by
          simp only [grow, List.length_map, List.length_zip]
          omega
        exact ih hgrown h

/-- Laying out neither drops nor exchanges instructions, nor changes their numbers. -/
theorem layout_keeps {body : List Pending} {labels : Labels} {code : List Instruction}
    (h : layout body labels = .ok code) : List.Forall₂ Keeps body code :=
  settle_keeps _ (List.length_map _) h

theorem opcodes_of_layout {body : List Pending} {labels : Labels} {code : List Instruction}
    (h : layout body labels = .ok code) :
    code.map Instruction.opcode = body.map Pending.opcode := by
  have same : List.Forall₂ (· = ·) (body.map Pending.opcode) (code.map Instruction.opcode) :=
    List.forall₂_map_left_iff.mpr (List.forall₂_map_right_iff.mpr
      ((layout_keeps h).imp fun _ _ kept => kept.opcode.symm))
  rw [List.forall₂_eq_eq_eq] at same
  exact same.symm

/-! ## Sizes that arguments need -/

/-- Sizes that are nowhere larger than others. -/
abbrev Within (sizes larger : List Nat) : Prop :=
  List.Forall₂ (· ≤ ·) sizes larger

theorem Within.total {s t : List Nat} (h : Within s t) : s.sum ≤ t.sum := by
  induction h with
  | nil => exact Nat.le_refl _
  | cons head _ ih =>
    rw [List.sum_cons, List.sum_cons]
    exact Nat.add_le_add head ih

theorem Within.trans {s t u : List Nat} (h : Within s t) (h' : Within t u) : Within s u := by
  induction h generalizing u with
  | nil => exact h'
  | cons head _ ih =>
    cases h' with
    | cons head' tail' => exact .cons (Nat.le_trans head head') (ih tail')

theorem Within.antisymm {s t : List Nat} (h : Within s t) (h' : Within t s) : s = t := by
  induction h with
  | nil => rfl
  | cons head _ ih =>
    cases h' with
    | cons head' tail' => rw [Nat.le_antisymm head head', ih tail']

theorem Within.total_lt {s t : List Nat} (h : Within s t) (ne : s ≠ t) : s.sum < t.sum := by
  induction h with
  | nil => exact absurd rfl ne
  | @cons a b s t head tail ih =>
    rw [List.sum_cons, List.sum_cons]
    rcases Nat.lt_or_eq_of_le head with lt | rfl
    · exact Nat.add_lt_add_of_lt_of_le lt (Within.total tail)
    · exact Nat.add_lt_add_left (ih fun same => ne (by rw [same])) a

theorem start_le_sum (sizes : List Nat) (i : Nat) : start sizes i ≤ sizes.sum := by
  have split : (sizes.take i).sum + (sizes.drop i).sum = sizes.sum := by
    rw [← List.sum_append, List.take_append_drop]
  rw [start]
  omega

theorem start_mono (sizes : List Nat) {i j : Nat} (h : i ≤ j) : start sizes i ≤ start sizes j := by
  have split := congrArg List.sum (List.take_append_drop i (sizes.take j))
  rw [List.take_take, Nat.min_eq_left h, List.sum_append] at split
  rw [start, start]
  omega

/-- The bytes between two instructions grow with the sizes. -/
theorem Within.span {s t : List Nat} (h : Within s t) {i j : Nat} (hij : i ≤ j) :
    start s j + start t i ≤ start t j + start s i := by
  induction hij with
  | refl => exact Nat.le_of_eq (Nat.add_comm _ _)
  | @step j _ ih =>
    have same := h.length_eq
    by_cases hj : j < s.length
    · have head : s[j] ≤ t[j] := h.get hj (same ▸ hj)
      rw [start_succ hj, start_succ (same ▸ hj)]
      omega
    · have past : ∀ l : List Nat, l.length ≤ j → start l (j + 1) = start l j := fun l hl => by
        rw [start, start, List.take_of_length_le hl, List.take_of_length_le (Nat.le_succ_of_le hl)]
      rw [past s (by omega), past t (by omega)]
      exact ih

/-- A number between zero and another needs no wider an argument. -/
theorem narrowest_mono (op : Opcode) {m n : Int32}
    (h : 0 ≤ m.toInt ∧ m.toInt ≤ n.toInt ∨ n.toInt ≤ m.toInt ∧ m.toInt ≤ 0) :
    op.narrowest m ≤ op.narrowest n := by
  have fits : ∀ width, op.fits width n = true → op.fits width m = true := by
    intro width hn
    unfold Opcode.fits at hn ⊢
    cases signed : op.signedAt width <;>
      simp only [signed, Bool.false_eq_true, if_false, if_true, Bool.and_eq_true,
        decide_eq_true_eq] at hn ⊢ <;> omega
  unfold Opcode.narrowest
  cases op.takesArgument
  · exact Nat.le_refl 0
  · simp only [Bool.not_true, Bool.false_eq_true, if_false]
    by_cases one : op.fits 1 n = true
    · rw [if_pos one]
      exact Nat.le_of_eq (if_pos (fits 1 one))
    · rw [if_neg one]
      by_cases two : op.fits 2 n = true
      · rw [if_pos two, if_pos (fits 2 two)]
        split <;> omega
      · rw [if_neg two]
        repeat' split
        all_goals omega

/-- A distance within a handler of less than 2³¹ bytes does not wrap. -/
theorem distance_toInt (op : Opcode) {a b : Nat} (ha : a < 2147483648) (hb : b < 2147483648) :
    (distance op a b).toInt = if op = .endRepeat then (a : Int) - b else (b : Int) - a := by
  unfold distance
  by_cases h : op = .endRepeat
  · rw [if_pos (beq_iff_eq.mpr h), if_pos h]
    exact Int32.toInt_ofInt_of_le (by omega) (by omega)
  · rw [if_neg (fun e => h (beq_iff_eq.mp e)), if_neg h]
    exact Int32.toInt_ofInt_of_le (by omega) (by omega)

theorem size_argument_mono (op : Opcode) (r : Resolved) (i : Nat) {s t : List Nat}
    (h : Within s t) (short : t.sum < 2147483648) :
    size op (r.argument op s i) ≤ size op (r.argument op t i) := by
  cases r with
  | value n => exact Nat.le_refl _
  | index target =>
    refine Nat.add_le_add_left (narrowest_mono op ?_) 1
    have hs := h.total
    have bounds : ∀ k, start s k < 2147483648 ∧ start t k < 2147483648 := fun k =>
      ⟨by have := start_le_sum s k; omega, by have := start_le_sum t k; omega⟩
    simp only [Resolved.argument, distance_toInt op (bounds i).1 (bounds target).1,
      distance_toInt op (bounds i).2 (bounds target).2]
    rcases Nat.le_total i target with forward | backward
    · have grows := h.span forward
      have hs' := start_mono s forward
      split <;> omega
    · have grows := h.span backward
      have hs' := start_mono s backward
      split <;> omega

theorem needs_mono (items : List Item) {s t : List Nat} (h : Within s t)
    (short : t.sum < 2147483648) : Within (needs items s) (needs items t) := by
  refine List.forall₂_iff_get.mpr ⟨by simp [needs], fun i _ _ => ?_⟩
  simp only [needs, List.get_eq_getElem, List.getElem_mapIdx]
  exact size_argument_mono _ _ _ h short

/-! ## Widening -/

theorem within_widen {items : List Item} {sizes : List Nat} (hs : sizes.length = items.length) :
    Within sizes (widen items sizes) := by
  refine List.forall₂_iff_get.mpr ⟨by simp [widen, needs, hs], fun i _ _ => ?_⟩
  simp only [widen, List.get_eq_getElem, List.getElem_zipWith]
  exact Nat.le_max_right _ _

theorem needs_within_widen {items : List Item} {sizes : List Nat}
    (hs : sizes.length = items.length) : Within (needs items sizes) (widen items sizes) := by
  refine List.forall₂_iff_get.mpr ⟨by simp [widen, needs, hs], fun i _ _ => ?_⟩
  simp only [widen, List.get_eq_getElem, List.getElem_zipWith]
  exact Nat.le_max_left _ _

/-- Sizes below what their arguments need are widened to just that. -/
theorem widen_eq_needs {items : List Item} {sizes : List Nat}
    (rising : Within sizes (needs items sizes)) : widen items sizes = needs items sizes := by
  refine List.ext_getElem ?_ fun i h₁ h₂ => ?_
  · rw [widen, List.length_zipWith, ← rising.length_eq, Nat.min_self]
  · have le := rising.get (by rw [rising.length_eq]; exact h₂) h₂
    simp only [List.get_eq_getElem] at le
    simp only [widen, List.getElem_zipWith]
    exact Nat.max_eq_left le

/-- What holds of sizes at first and of widened sizes holds in the end. -/
theorem relax_induction {items : List Item} {P : List Nat → Prop}
    (round : ∀ sizes, P sizes → P (widen items sizes)) (rounds : Nat) {sizes : List Nat}
    (h : P sizes) : P (relax items rounds sizes) := by
  induction rounds generalizing sizes with
  | zero =>
    rw [relax]
    split <;> exact h
  | succ rounds ih =>
    rw [relax]
    split
    · exact h
    · exact ih (round _ h)

theorem length_widen {items : List Item} {sizes : List Nat} (hs : sizes.length = items.length) :
    (widen items sizes).length = items.length :=
  (within_widen hs).length_eq.symm.trans hs

theorem length_relax {items : List Item} {sizes : List Nat} (rounds : Nat)
    (hs : sizes.length = items.length) : (relax items rounds sizes).length = items.length :=
  relax_induction (P := fun sizes => sizes.length = items.length) (fun _ => length_widen) rounds hs

theorem within_relax {items : List Item} (rounds : Nat) {sizes : List Nat}
    (hs : sizes.length = items.length) : Within sizes (relax items rounds sizes) := by
  have both := relax_induction
    (P := fun grown => grown.length = items.length ∧ Within sizes grown)
    (fun grown h => ⟨length_widen h.1, h.2.trans (within_widen h.1)⟩) rounds
    ⟨hs, List.forall₂_refl sizes⟩
  exact both.2

/-- Widening ends below what the arguments need. -/
theorem relax_rising {items : List Item} (rounds : Nat) {sizes : List Nat}
    (rising : Within sizes (needs items sizes))
    (short : (relax items rounds sizes).sum < 2147483648) :
    Within (relax items rounds sizes) (needs items (relax items rounds sizes)) := by
  induction rounds generalizing sizes with
  | zero =>
    rw [relax]
    split <;> exact rising
  | succ rounds ih =>
    rw [relax] at short ⊢
    split
    · exact rising
    · rename_i changed
      rw [if_neg changed] at short
      have hs : sizes.length = items.length := rising.length_eq.trans (by simp [needs])
      have within := within_relax rounds (length_widen hs)
      refine ih ?_ short
      have grows := needs_mono items (within_widen hs) (Nat.lt_of_le_of_lt within.total short)
      rwa [← widen_eq_needs rising] at grows

/-! ## Rounds -/

/-- The size that an instruction has at most. -/
def ceiling (item : Item) : Nat :=
  if item.1.takesArgument then 5 else 1

theorem narrowest_le (op : Opcode) (n : Int32) :
    op.narrowest n ≤ if op.takesArgument then 4 else 0 := by
  unfold Opcode.narrowest
  cases op.takesArgument
  · exact Nat.le_refl 0
  · simp only [Bool.not_true, Bool.false_eq_true, if_false, if_true]
    repeat' split
    all_goals omega

theorem size_le_ceiling (item : Item) (n : Int32) : size item.1 n ≤ ceiling item := by
  have narrow := narrowest_le item.1 n
  unfold size ceiling
  split at narrow <;> simp only [*, if_true, Bool.false_eq_true, if_false] <;> omega

theorem ceiling_le_least (item : Item) : ceiling item ≤ least item + 3 := by
  have positive : ∀ n, item.1.takesArgument = true → 1 ≤ item.1.narrowest n := by
    intro n takes
    unfold Opcode.narrowest
    simp only [takes, Bool.not_true, Bool.false_eq_true, if_false]
    repeat' split
    all_goals omega
  unfold ceiling least size
  split
  · rename_i takes
    have one := positive (match item.2 with | .value n => n | .index _ => 0) takes
    omega
  · omega

theorem widen_within_ceiling {items : List Item} {sizes : List Nat}
    (h : Within sizes (items.map ceiling)) : Within (widen items sizes) (items.map ceiling) := by
  have hs : sizes.length = items.length := h.length_eq.trans (List.length_map _)
  refine List.forall₂_iff_get.mpr ⟨by rw [length_widen hs, List.length_map], fun i h₁ h₂ => ?_⟩
  have le := h.get (by rw [hs, ← length_widen hs]; exact h₁) h₂
  simp only [widen, needs, List.get_eq_getElem, List.getElem_zipWith, List.getElem_mapIdx,
    List.getElem_map] at le ⊢
  exact Nat.max_le.mpr ⟨size_le_ceiling _ _, le⟩

/-- Every round that changes a size makes the total larger, so that as many
rounds as there is room for end with sizes that fit. -/
theorem relax_settled {items : List Item} (rounds : Nat) {sizes : List Nat}
    (h : Within sizes (items.map ceiling))
    (room : (items.map ceiling).sum ≤ sizes.sum + rounds) :
    widen items (relax items rounds sizes) = relax items rounds sizes := by
  have hs : sizes.length = items.length := h.length_eq.trans (List.length_map _)
  have larger : widen items sizes ≠ sizes → sizes.sum < (widen items sizes).sum :=
    fun changed => (within_widen hs).total_lt (Ne.symm changed)
  have bound := (widen_within_ceiling h).total
  induction rounds generalizing sizes with
  | zero =>
    rw [relax]
    split
    · assumption
    · rename_i changed
      have := larger changed
      omega
  | succ rounds ih =>
    rw [relax]
    split
    · assumption
    · rename_i changed
      have more := larger changed
      have next := widen_within_ceiling h
      exact ih next (by omega) (length_widen hs)
        (fun changed => (within_widen (length_widen hs)).total_lt (Ne.symm changed))
        (widen_within_ceiling next).total

/-! ## The sizes of a body -/

theorem least_within_needs (items : List Item) :
    Within (items.map least) (needs items (items.map least)) := by
  refine List.forall₂_iff_get.mpr ⟨by simp [needs], fun i h₁ _ => ?_⟩
  have hi : i < items.length := by simpa using h₁
  simp only [needs, List.get_eq_getElem, List.getElem_mapIdx, List.getElem_map, least]
  cases items[i].2 with
  | value n => exact Nat.le_refl _
  | index target =>
    refine Nat.add_le_add_left (narrowest_mono _ ?_) 1
    have zero : (0 : Int32).toInt = 0 := rfl
    rw [zero]
    omega

theorem least_within_ceiling (items : List Item) :
    Within (items.map least) (items.map ceiling) := by
  refine List.forall₂_map_left_iff.mpr (List.forall₂_map_right_iff.mpr ?_)
  exact List.forall₂_same.mpr fun item _ => size_le_ceiling item _

/-- The rounds that `layout` allows are enough. -/
theorem settledSizes_settled (items : List Item) :
    widen items (settledSizes items) = settledSizes items := by
  refine relax_settled _ (least_within_ceiling items) ?_
  induction items with
  | nil => exact Nat.le_refl 0
  | cons item items ih =>
    have head := ceiling_le_least item
    simp only [List.map_cons, List.sum_cons, List.length_cons]
    omega

theorem length_settledSizes (items : List Item) :
    (settledSizes items).length = items.length :=
  length_relax _ (List.length_map _)

/-- A body settles on the sizes that its arguments then need. -/
theorem settledSizes_exact {items : List Item} (short : (settledSizes items).sum < 2147483648) :
    needs items (settledSizes items) = settledSizes items := by
  have rising := relax_rising _ (least_within_needs items) short
  have settled := needs_within_widen (length_settledSizes items)
  rw [settledSizes_settled] at settled
  exact settled.antisymm rising

/-! ## Bytes of a body -/

/-- Sizes of an opcode byte and an argument of some width. -/
def Sized (items : List Item) (sizes : List Nat) : Prop :=
  List.Forall₂ (fun item s => ∃ width, item.1.Width width ∧ s = 1 + width) items sizes

theorem sized_widen {items : List Item} {sizes : List Nat} (h : Sized items sizes) :
    Sized items (widen items sizes) := by
  have hs : sizes.length = items.length := h.length_eq.symm
  refine List.forall₂_iff_get.mpr ⟨(length_widen hs).symm, fun i h₁ h₂ => ?_⟩
  obtain ⟨width, hw, size_eq⟩ := h.get h₁ (by rw [hs]; exact h₁)
  simp only [widen, needs, List.get_eq_getElem, List.getElem_zipWith, List.getElem_mapIdx]
    at size_eq ⊢
  rcases Nat.le_total (size items[i].1 (items[i].2.argument items[i].1 sizes i)) sizes[i]
    with narrow | wide
  · exact ⟨width, hw, by rw [Nat.max_eq_right narrow, size_eq]⟩
  · exact ⟨_, Opcode.narrowest_width _ _, Nat.max_eq_left wide⟩

theorem sized_settledSizes (items : List Item) : Sized items (settledSizes items) := by
  refine relax_induction (P := Sized items) (fun _ => sized_widen) _ ?_
  exact List.forall₂_map_right_iff.mpr
    (List.forall₂_same.mpr fun item _ => ⟨_, Opcode.narrowest_width _ _, rfl⟩)

theorem length_laidOut (items : List Item) : (laidOut items).length = items.length := by
  simp [laidOut, placed]

/-- An instruction takes the bytes up to the next one. -/
theorem laidOut_width {items : List Item} {i : Nat} (hi : i < (laidOut items).length) :
    (laidOut items)[i].offset + (laidOut items)[i].width =
      start (settledSizes items) (i + 1) := by
  have hs : i < (settledSizes items).length := by
    rw [length_settledSizes, ← length_laidOut]
    exact hi
  obtain ⟨width, hw, size_eq⟩ :=
    (sized_settledSizes items).get (by rwa [length_laidOut] at hi) hs
  simp only [List.get_eq_getElem] at hw size_eq
  rw [start_succ hs]
  simp only [laidOut, placed, List.getElem_mapIdx, Instruction.width,
    List.getD_eq_getElem?_getD, List.getElem?_eq_getElem hs, Option.getD_some, size_eq,
    Nat.add_sub_cancel_left, argumentWidth_byteFor hw]

/-- A handler that is laid out takes the bytes of its instructions. -/
theorem byteLength_laidOut {items : List Item} {h : Handler}
    (code : h.code = (laidOut items).toArray) : h.byteLength = (settledSizes items).sum := by
  have all : start (settledSizes items) (laidOut items).length = (settledSizes items).sum := by
    rw [start, length_laidOut, ← length_settledSizes, List.take_length]
  rw [Handler.byteLength, code, List.back?_toArray, ← all]
  cases hl : (laidOut items).length with
  | zero => rw [List.length_eq_zero_iff.mp hl]; rfl
  | succ n =>
    rw [List.getLast?_eq_getElem?, hl, Nat.add_sub_cancel, List.getElem?_eq_getElem (by omega)]
    exact laidOut_width (by omega)

/-! ## Narrow code -/

/-- The instructions of a body with the arguments that come of given sizes. -/
def operations (items : List Item) (sizes : List Nat) : List (Opcode × Int32) :=
  items.mapIdx fun i item => (item.1, item.2.argument item.1 sizes i)

theorem narrowFrom_eq (offset : Nat) (ops : List (Opcode × Int32)) :
    narrowFrom offset ops =
      ops.mapIdx fun i p => .narrow (offset + start (ops.map fun p => size p.1 p.2) i) p.1 p.2 := by
  induction ops generalizing offset with
  | nil => rfl
  | cons p ops ih =>
    rw [narrowFrom, ih, List.mapIdx_cons]
    simp [start, size, Nat.add_assoc]

theorem placed_narrow {items : List Item} {sizes : List Nat} (exact : needs items sizes = sizes) :
    placed items sizes = narrowFrom 0 (operations items sizes) := by
  have same : (operations items sizes).map (fun p => size p.1 p.2) = sizes := by
    refine Eq.trans (List.ext_getElem (by simp [operations, needs]) fun i _ _ => ?_) exact
    simp only [operations, needs, List.getElem_map, List.getElem_mapIdx]
  rw [narrowFrom_eq, same]
  refine List.ext_getElem (by simp [placed, operations]) fun i h₁ h₂ => ?_
  have hi : i < items.length := by simpa [placed] using h₁
  have width : sizes[i]? = (needs items sizes)[i]? := by rw [exact]
  simp only [placed, operations, List.getElem_mapIdx, Instruction.narrow, Nat.zero_add,
    List.getD_eq_getElem?_getD, width, needs, List.getElem?_mapIdx, List.getElem?_eq_getElem hi,
    Option.map_some, Option.getD_some, size, Nat.add_sub_cancel_left]

/-- A body of less than 2³¹ bytes is laid out with narrowest encodings. -/
theorem laidOut_narrow {items : List Item} (short : (settledSizes items).sum < 2147483648) :
    laidOut items = narrowFrom 0 (operations items (settledSizes items)) :=
  placed_narrow (settledSizes_exact short)

end Lingo.Layout
