import Lingo.Proofs.Printed

/-!
# Reading printed lines

`Runs blame P lines Q` says that in every state with `P` the assembler accepts lines,
and is in a state with `Q` behind them, or refuses them for a fault that is to `blame`;
`Feeds P lines Q`, that it accepts them. `Runs.append` and `Runs.each` put lists of lines
together.

A listed handler is read as its body with labels that are named after offsets.
Their places are those of the instructions that the jumps lead to
(`lookup_markers`), so that the body is laid out as it was (`relayout`).
-/

namespace Lingo

open Number
open Token (Prints offsetLabel)

/-- The token of a literal in a listing. -/
def Literal.token : Literal → Token
  | .text t => .string t
  | .int n => .int n.toInt
  | .float x => .float x

namespace Assembly

/-! ## Lists of lines -/

/-- From every state with `P`, lines lead to a state with `Q`, unless one of them is refused
for a fault that is to `blame`. -/
structure Runs (blame : AsmFault → Prop) (P : Assembly → Prop) (lines : List String)
    (Q : Assembly → Prop) : Prop where
  line : ∀ text ∈ lines, OneLine text.toList
  outcome : ∀ line a, P a →
    (∃ a', feedAll line a (lines.map String.toList) = .ok a' ∧ Q a') ∨
      ∃ e, feedAll line a (lines.map String.toList) = .error e ∧ blame e.fault

/-- From every state with `P`, lines are accepted and lead to a state with
`Q`. -/
structure Feeds (P : Assembly → Prop) (lines : List String) (Q : Assembly → Prop) : Prop where
  line : ∀ text ∈ lines, OneLine text.toList
  accepted : ∀ line a, P a → ∃ a', feedAll line a (lines.map String.toList) = .ok a' ∧ Q a'

section

variable {P Q R : Assembly → Prop} {blame : AsmFault → Prop} {xs ys : List String}

theorem Runs.nil (blame : AsmFault → Prop) (P : Assembly → Prop) : Runs blame P [] P where
  line := fun _ h => absurd h List.not_mem_nil
  outcome := fun _ a h => .inl ⟨a, rfl, h⟩

theorem Runs.append (h : Runs blame P xs Q) (h' : Runs blame Q ys R) :
    Runs blame P (xs ++ ys) R where
  line := by
    intro text ht
    rcases List.mem_append.mp ht with ht | ht
    · exact h.line text ht
    · exact h'.line text ht
  outcome := by
    intro line a ha
    rw [List.map_append, feedAll_append]
    rcases h.outcome line a ha with ⟨a₁, first, h₁⟩ | ⟨e, failed, he⟩
    · rw [first]
      exact h'.outcome (line + (xs.map String.toList).length) a₁ h₁
    · rw [failed]
      exact .inr ⟨e, rfl, he⟩

/-- Lines that are printed of the elements of a list, one after another. -/
theorem Runs.each {α : Type} (I : Nat → Assembly → Prop) (print : α → List String) (xs : List α)
    (step : ∀ i (h : i < xs.length), Runs blame (I i) (print xs[i]) (I (i + 1))) :
    Runs blame (I 0) (xs.flatMap print) (I xs.length) := by
  induction xs generalizing I with
  | nil => exact .nil blame _
  | cons x xs ih =>
    have rest := ih (fun i => I (i + 1)) fun i h => step (i + 1) (Nat.succ_lt_succ h)
    exact (step 0 (Nat.zero_lt_succ _)).append rest

theorem Runs.imp (h : Runs blame P xs Q) (hq : ∀ a, Q a → R a) : Runs blame P xs R where
  line := h.line
  outcome := fun line a ha =>
    (h.outcome line a ha).imp_left fun ⟨a', read, h'⟩ => ⟨a', read, hq a' h'⟩

/-- What does not concern the state stays as it is. -/
theorem Runs.frame (fact : Prop) (h : Runs blame P xs Q) :
    Runs blame (fun a => P a ∧ fact) xs fun a => Q a ∧ fact where
  line := h.line
  outcome := fun line a ha =>
    (h.outcome line a ha.1).imp_left fun ⟨a', read, h'⟩ => ⟨a', read, h', ha.2⟩

/-- Lines that are printed of the elements of a list, each of which leads back to where it
started and shows a fact about its element. -/
theorem Runs.all {α : Type} {print : α → List String} {fact : α → Prop} {xs : List α}
    (step : ∀ x ∈ xs, Runs blame P (print x) fun a => P a ∧ fact x) :
    Runs blame P (xs.flatMap print) fun a => P a ∧ ∀ x ∈ xs, fact x := by
  induction xs with
  | nil => exact (Runs.nil blame P).imp fun a ha => ⟨ha, nofun⟩
  | cons x xs ih =>
    obtain ⟨first, rest⟩ := List.forall_mem_cons.mp step
    refine (first.append ((ih rest).frame (fact x))).imp fun a ⟨⟨ha, others⟩, here⟩ => ?_
    exact ⟨ha, List.forall_mem_cons.mpr ⟨here, others⟩⟩

/-- Lines that are accepted are lines for which nothing is to blame. -/
theorem feeds_iff : Feeds P xs Q ↔ Runs (fun _ => False) P xs Q where
  mp := fun h => ⟨h.line, fun line a ha => .inl (h.accepted line a ha)⟩
  mpr := fun h =>
    ⟨h.line, fun line a ha => (h.outcome line a ha).resolve_right fun ⟨_, _, he⟩ => he⟩

theorem Feeds.nil (P : Assembly → Prop) : Feeds P [] P :=
  feeds_iff.mpr (.nil _ P)

theorem Feeds.append (h : Feeds P xs Q) (h' : Feeds Q ys R) : Feeds P (xs ++ ys) R :=
  feeds_iff.mpr ((feeds_iff.mp h).append (feeds_iff.mp h'))

theorem Feeds.each {α : Type} (I : Nat → Assembly → Prop) (print : α → List String) (xs : List α)
    (step : ∀ i (h : i < xs.length), Feeds (I i) (print xs[i]) (I (i + 1))) :
    Feeds (I 0) (xs.flatMap print) (I xs.length) :=
  feeds_iff.mpr (.each I print xs fun i h => feeds_iff.mp (step i h))

theorem feeds_line {text : String} {tokens : List Token} (printed : Prints text tokens)
    (step : ∀ line a, P a → ∃ a', a.feed line text.toList = .ok a' ∧ Q a') :
    Feeds P [text] Q where
  line := by
    intro other h
    rw [List.mem_singleton.mp h]
    exact printed.line
  accepted := by
    intro line a ha
    obtain ⟨a', accepted, h⟩ := step line a ha
    exact ⟨a', by rw [List.map_singleton, feedAll, accepted]; rfl, h⟩

theorem feeds_statement {text word : String} {args : List Token}
    (printed : Prints text (.word word :: args))
    (step : ∀ line a, P a → ∃ a', a.statement line (.word word) args = .ok a' ∧ Q a') :
    Feeds P [text] Q := by
  refine feeds_line printed fun line a ha => ?_
  obtain ⟨a', accepted, h⟩ := step line a ha
  exact ⟨a', by simp only [feed, printed.tokens, accepted], h⟩

theorem feeds_labelDef {text label : String} (printed : Prints text [.labelDef label])
    (step : ∀ line a, P a → ∃ a', a.defineLabel line label = .ok a' ∧ Q a') :
    Feeds P [text] Q := by
  refine feeds_line printed fun line a ha => ?_
  obtain ⟨a', accepted, h⟩ := step line a ha
  refine ⟨a', ?_, h⟩
  simp only [feed, printed.tokens, accepted]
  rfl

end

/-! ## Directives and operands that are read back -/

theorem intOperand_toInt (line : Nat) (n : Int32) : intOperand line (.int n.toInt) = .ok n := by
  have low := n.le_toInt
  have high := n.toInt_lt
  have bounds : Int32.minValue.toInt = -2147483648 ∧ UInt32.size = 4294967296 := by decide
  rw [intOperand, if_pos, Int32.ofInt_toInt]
  simp only [Bool.and_eq_true, decide_eq_true_eq]
  omega

theorem declaredNames_words (line : Nat) (names : List String) :
    declaredNames line (names.map .word) = .ok names := by
  rw [declaredNames, Layout.mapM_ok_iff, List.forall₂_map_left_iff]
  exact List.forall₂_same.mpr fun name _ => rfl

theorem mnemonic_not_directive {op : Opcode} (valid : op ≠ .invalid) :
    Text.asciiLower op.mnemonic ∉ directives := by
  intro h
  have none := ofMnemonic?_directive h
  rw [ofMnemonic?_mnemonic _ valid] at none
  cases none

theorem statement_instruction {op : Opcode} (valid : op ≠ .invalid) (a : Assembly) (line : Nat)
    (args : List Token) :
    a.statement line (.word op.mnemonic) args = a.instruction line op.mnemonic args := by
  have noDirective := mnemonic_not_directive valid
  unfold statement
  dsimp only
  split
  all_goals first
    | rename_i same
      rw [same] at noDirective
      exact absurd (by decide) noDirective
    | rfl

theorem readBounded_toString {n : Nat} (h : n < 2 ^ 32) :
    readBounded 32 (toString n).toList = some n := by
  rw [show (toString n).toList = Nat.toDigits 10 n from Nat.toList_repr, readBounded]
  have natural : readNatural (Nat.toDigits 10 n) = some n := by
    obtain ⟨d, rest, same, digit⟩ := (Token.toDigits_numeric n).starts
    have noPlus : ∀ c ∈ "0123456789".toList, c ≠ '+' := List.all_iff_forall_prop.mp (by decide)
    rw [← Token.readDigits_toDigits n, same, readNatural]
    intro rest' plus
    cases plus
    exact noPlus _ (Token.mem_digits digit) rfl
  rw [natural, Option.filter_some, if_pos]
  exact decide_eq_true h

/-- The operand of a constant push is entered in the table of the script. -/
theorem operand_literal (lib : Library) (s : OpenScript) (h : OpenHandler) (line : Nat)
    (x : Literal) :
    Assembly.operand lib s h line .pushCons x.token =
      let (id, literals) := internLiteral s.script.literals x
      .ok (.value id, lib, { s with script := { s.script with literals } }) := by
  cases x with
  | text t => rfl
  | int n =>
    exact bind_eq_ok.mpr ⟨_, congrArg (Except.map Literal.int) (intOperand_toInt line n), rfl⟩
  | float x => rfl

/-- An integer is an operand of any operation but the pushes of constants, the
slot of a variable being scaled. -/
theorem operand_int (lib : Library) (s : OpenScript) (h : OpenHandler) (line : Nat) {op : Opcode}
    (n : Int32) (noCons : op ≠ .pushCons) (noFloat : op ≠ .pushFloat32) :
    Assembly.operand lib s h line op (.int n.toInt) =
      .ok (.value (if op.takesSlot then n * lib.slotScale else n), lib, s) := by
  have slot : ∀ op, variableSlot line h op (.int n.toInt) = .ok n := fun op =>
    intOperand_toInt line n
  unfold Assembly.operand
  split
  · rename_i same
    cases same
  · rename_i same
    cases same
  · split
    · exact absurd rfl noCons
    · exact absurd rfl noFloat
    · rw [slot]
      rfl
    · rw [slot]
      rfl
    · rw [slot]
      rfl
    · rw [slot]
      rfl
    · rename_i noGetParam noSetParam noGetLocal noSetLocal
      rw [takesSlot_eq_false noGetParam noSetParam noGetLocal noSetLocal, intOperand_toInt]
      rfl

end Assembly

namespace Layout

/-! ## Labels that stand for offsets -/

theorem offsetLabel_inj {m n : Int} (h : offsetLabel m = offsetLabel n) : m = n := by
  have chars := congrArg String.toList h
  rw [Token.toList_offsetLabel, Token.toList_offsetLabel] at chars
  have read := Token.readInteger_intChars m
  rw [(List.cons.inj chars).2, Token.readInteger_intChars n] at read
  exact (Option.some.inj read).symm

/-- Instructions start at offsets of their own. -/
theorem start_inj (items : List Item) (i j : Nat) (hi : i ≤ items.length) (hj : j ≤ items.length)
    (same : start (settledSizes items) i = start (settledSizes items) j) : i = j := by
  have sized := sized_settledSizes items
  have length := length_settledSizes items
  rcases Nat.lt_trichotomy i j with before | rfl | behind
  · have lt := start_lt sized before (by omega)
    omega
  · rfl
  · have lt := start_lt sized behind (by omega)
    omega

/-- The labels of a listed handler, up to an instruction: one for each offset
that a jump leads to. -/
def markers (sizes : List Nat) (targets : List Int) : Nat → Labels
  | 0 => []
  | i + 1 => markers sizes targets i ++
      if targets.contains (start sizes i : Int) then [(offsetLabel (start sizes i), i)] else []

theorem markers_lt {sizes : List Nat} {targets : List Int} {i : Nat} {name : String} {place : Nat}
    (h : (name, place) ∈ markers sizes targets i) : place < i := by
  induction i with
  | zero => exact absurd h List.not_mem_nil
  | succ i ih =>
    rcases List.mem_append.mp h with h | h
    · exact Nat.lt_succ_of_lt (ih h)
    · split at h
      · cases List.mem_singleton.mp h
        exact Nat.lt_succ_self _
      · exact absurd h List.not_mem_nil

/-- The label of an offset stands before the instruction that starts there. -/
theorem lookup_markers {sizes : List Nat} {targets : List Int} {n : Nat}
    (apart : ∀ i j, i ≤ n → j ≤ n → start sizes i = start sizes j → i = j) {i : Nat}
    (hi : i ≤ n + 1) {target : Nat} (ht : target ≤ n) :
    (markers sizes targets i).lookup (offsetLabel (start sizes target)) =
      if target < i ∧ targets.contains (start sizes target : Int) then some target else none := by
  induction i with
  | zero => rfl
  | succ i ih =>
    rw [markers, List.lookup_append, ih (by omega)]
    by_cases here : target = i
    · subst here
      rw [if_neg (by omega), Option.none_or]
      by_cases leads : targets.contains (start sizes target : Int) = true
      · rw [if_pos leads, if_pos ⟨by omega, leads⟩]
        rw [List.lookup_cons_self]
      · rw [if_neg leads, if_neg fun both => leads both.2]
        rfl
    · have other : (offsetLabel (start sizes target) == offsetLabel (start sizes i)) = false :=
        beq_false_of_ne fun same => here (apart _ _ ht (by omega) (Int.ofNat_inj.mp (offsetLabel_inj same)))
      have silent : (if targets.contains (start sizes i : Int) then
          [(offsetLabel (start sizes i), i)] else []).lookup (offsetLabel (start sizes target)) =
            none := by
        split
        · rw [List.lookup_cons, other, List.lookup_nil]
        · rfl
      rw [silent, Option.or_none]
      refine if_congr ?_ rfl rfl
      constructor
      · exact fun both => ⟨by omega, both.2⟩
      · exact fun both => ⟨by omega, both.2⟩

/-- An item as it is read from a listing. -/
def spelling (sizes : List Nat) (item : Item) : Opcode × Operand :=
  (item.1,
    match item.2 with
    | .index target => .label (offsetLabel (start sizes target))
    | .value n => if item.1.takesArgument then .value n else .absent)

theorem spelling_plain {sizes : List Nat} {op : Opcode} {r : Resolved} {size : Nat} {scale : Int32}
    (allowed : r.Writable op size scale) (plain : op.takesArgument = false) :
    spelling sizes (op, r) = (op, .absent) := by
  cases r with
  | value n => exact congrArg (op, ·) (if_neg (by rw [plain]; exact Bool.false_ne_true))
  | index target =>
    exact absurd ((plain_of_takes plain).2.2.1.symm.trans allowed.1) Bool.false_ne_true

section

variable {items : List Item} {scale : Int32} {targets : List Int} {body : List Pending}
  (writable : Writable items scale)
  (leads : ∀ op target, (op, Resolved.index target) ∈ items →
    targets.contains (start (settledSizes items) target : Int) = true)
include writable leads

/-- The labels of the jumps are all there. -/
theorem lookup_leads {op : Opcode} {target : Nat} (mem : (op, Resolved.index target) ∈ items) :
    (markers (settledSizes items) targets (items.length + 1)).lookup
      (offsetLabel (start (settledSizes items) target)) = some target := by
  have inside : target ≤ items.length := (writable _ mem).2
  rw [lookup_markers (start_inj items) (Nat.le_refl _) inside,
    if_pos ⟨Nat.lt_succ_of_le inside, leads op target mem⟩]

/-- What an item is read as is resolved to it again. -/
theorem resolve_spelling {item : Item} (mem : item ∈ items) :
    resolve (markers (settledSizes items) targets (items.length + 1))
      (spelling (settledSizes items) item).2 = item.2 := by
  rcases item with ⟨op, n | target⟩
  · have zero := (writable _ mem).2.2.1
    dsimp only [spelling]
    cases takes : op.takesArgument with
    | true => rfl
    | false => exact congrArg Resolved.value (zero takes).symm
  · simp only [spelling, resolve, lookup_leads writable leads mem, Option.getD_some]

variable
  (read : body.map (fun p => (p.opcode, p.operand)) = items.map (spelling (settledSizes items)))
include read

/-- Each label that an instruction of such a body jumps to is defined. -/
theorem resolves_of_spelling :
    Resolves body (markers (settledSizes items) targets (items.length + 1)) := by
  intro p hp name hn
  have mem : (p.opcode, p.operand) ∈ items.map (spelling (settledSizes items)) := by
    rw [← read]
    exact List.mem_map_of_mem hp
  obtain ⟨⟨op, r⟩, hitem, same⟩ := List.mem_map.mp mem
  rw [hn] at same
  cases r with
  | index target =>
    cases same
    rw [lookup_leads writable leads hitem]
    rfl
  | value n =>
    have operand := congrArg Prod.snd same
    simp only [spelling] at operand
    split at operand <;> cases operand

/-- A body that is read from a listing is laid out as it was. -/
theorem relayout :
    layout body (markers (settledSizes items) targets (items.length + 1)) = .ok (laidOut items) := by
  have size : body.length = items.length := by
    have lengths := congrArg List.length read
    rwa [List.length_map, List.length_map] at lengths
  have bounded : ∀ name target,
      (markers (settledSizes items) targets (items.length + 1)).lookup name = some target →
        target ≤ body.length := by
    intro name target h
    have lt := markers_lt (Bindings.mem_of_lookup h)
    omega
  rw [layout_eq bounded (resolves_of_spelling writable leads read)]
  congr 2
  have pairs : Layout.items body (markers (settledSizes items) targets (items.length + 1)) =
      (body.map fun p => (p.opcode, p.operand)).map fun q =>
        (q.1, resolve (markers (settledSizes items) targets (items.length + 1)) q.2) := by
    rw [List.map_map]
    rfl
  rw [pairs, read, List.map_map]
  refine (List.map_congr_left fun item hitem => ?_).trans (List.map_id items)
  exact congrArg (item.1, ·) (resolve_spelling writable leads hitem)

end

end Layout

end Lingo
