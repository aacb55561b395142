import Mathlib.Data.Finset.Sum
import Mathlib.Logic.Relation
import Mathlib.Tactic.WLOG
import Lingo.Memory

/-!
# How values nest

A container holds the values in its cell, and leads to what they lead to in turn.
Operations on values with their contents go down to a depth of `Memory.levels`.
That is enough for a value in which no container leads back to itself:

* `nested_of_acyclic`: such a value is at most `levels` deep, for a longer way down
  comes through one cell twice; and `acyclic_of_nested`, the other way round;
* `mem_occurrences`: the list of all that occurs in a value, a cell once for each way to
  it.
-/

namespace Lingo

/-- The list cell, or else the property list cell, of a container. -/
def Value.cell? : Value → Option (Nat ⊕ Nat)
  | .list cell | .argList cell | .argListNoRet cell => some (.inl cell)
  | .propList cell => some (.inr cell)
  | _ => none

namespace Memory

open Relation (ReflTransGen TransGen)

variable {m : Memory} {v w : Value} {n k : Nat}

/-- The values in a container. -/
def parts (m : Memory) : Value → List Value
  | .list cell | .argList cell | .argListNoRet cell => (m.list cell).toList
  | .propList cell => (m.props cell).values
  | _ => []

/-- The first value is a container of the second. -/
def Holds (m : Memory) (v w : Value) : Prop :=
  w ∈ m.parts v

instance (m : Memory) (v w : Value) : Decidable (m.Holds v w) :=
  inferInstanceAs (Decidable (w ∈ m.parts v))

/-- The second value is the first, or in it at some depth. -/
abbrev Reaches (m : Memory) : Value → Value → Prop :=
  ReflTransGen m.Holds

/-- No container in the value leads back to itself. -/
def Acyclic (m : Memory) (v : Value) : Prop :=
  ∀ w, m.Reaches v w → ¬ TransGen m.Holds w w

/-- No value contains itself. -/
def Founded (m : Memory) : Prop :=
  ∀ v, m.Acyclic v

/-- Fewer than `n` levels of containers are above each value in the value. -/
def Nested (m : Memory) : Nat → Value → Prop
  | 0, _ => False
  | n + 1, v => ∀ w ∈ m.parts v, m.Nested n w

instance decidableNested (m : Memory) : ∀ n v, Decidable (m.Nested n v)
  | 0, _ => inferInstanceAs (Decidable False)
  | n + 1, v =>
    haveI := m.decidableNested n
    inferInstanceAs (Decidable (∀ w ∈ m.parts v, m.Nested n w))

theorem reaches_iff : m.Reaches v w ↔ v = w ∨ ∃ u ∈ m.parts v, m.Reaches u w :=
  ReflTransGen.cases_head_iff

theorem Acyclic.reached (h : m.Acyclic v) (hw : m.Reaches v w) : m.Acyclic w :=
  fun u hu => h u (hw.trans hu)

theorem Nested.mono (h : m.Nested n v) (le : n ≤ k) : m.Nested k v := by
  induction n generalizing k v with
  | zero => exact h.elim
  | succ n ih =>
    cases k with
    | zero => exact absurd le (Nat.not_succ_le_zero n)
    | succ k => exact fun w hw => ih (h w hw) (Nat.le_of_succ_le_succ le)

/-- Of values that are at most `n` deep, the parts of the first one are less deep. -/
theorem nested_cons {vs : List Value} (h : ∀ w ∈ v :: vs, m.Nested n w) :
    ∃ k, n = k + 1 ∧ (∀ w ∈ m.parts v, m.Nested k w) ∧ ∀ w ∈ vs, m.Nested (k + 1) w := by
  obtain ⟨head, tail⟩ := List.forall_mem_cons.mp h
  cases n with
  | zero => exact head.elim
  | succ k => exact ⟨k, rfl, head, tail⟩

/-! ## Ways down -/

theorem Nested.of_transGen (h : m.Nested n v) (hw : TransGen m.Holds v w) :
    ∃ k < n, m.Nested k w := by
  have step {u w : Value} {n : Nat} (h : m.Nested n u) (hw : m.Holds u w) :
      ∃ k < n, m.Nested k w := by
    cases n with
    | zero => exact h.elim
    | succ n => exact ⟨n, Nat.lt_succ_self n, h w hw⟩
  induction hw with
  | single hw => exact step h hw
  | tail _ hw ih =>
    obtain ⟨k, less, hu⟩ := ih
    obtain ⟨l, lesser, hw⟩ := step hu hw
    exact ⟨l, Nat.lt_trans lesser less, hw⟩

theorem Nested.not_circular (h : m.Nested n v) : ¬ TransGen m.Holds v v := by
  induction n using Nat.strong_induction_on with
  | _ n ih =>
    intro circle
    obtain ⟨k, less, hk⟩ := h.of_transGen circle
    exact ih k less hk circle

theorem acyclic_of_nested (h : m.Nested n v) : m.Acyclic v := by
  intro w hw
  rcases Relation.reflTransGen_iff_eq_or_transGen.mp hw with rfl | hw
  · exact h.not_circular
  · obtain ⟨k, -, hk⟩ := h.of_transGen hw
    exact hk.not_circular

theorem exists_way_of_not_nested (h : ¬ m.Nested n v) :
    ∃ way : Nat → Value, way 0 = v ∧ ∀ i < n, m.Holds (way i) (way (i + 1)) := by
  induction n generalizing v with
  | zero => exact ⟨fun _ => v, rfl, fun _ hi => absurd hi (Nat.not_lt_zero _)⟩
  | succ n ih =>
    simp only [Nested, not_forall] at h
    obtain ⟨w, hw, deeper⟩ := h
    obtain ⟨way, rfl, holds⟩ := ih deeper
    refine ⟨fun i => Nat.casesOn i v way, rfl, fun i hi => ?_⟩
    cases i with
    | zero => exact hw
    | succ i => exact holds i (Nat.lt_of_succ_lt_succ hi)

/-- The values in a cell. -/
def held (m : Memory) : Nat ⊕ Nat → List Value
  | .inl cell => (m.list cell).toList
  | .inr cell => (m.props cell).values

theorem parts_eq (m : Memory) (v : Value) : m.parts v = v.cell?.elim [] m.held := by
  cases v <;> rfl

/-- All cells of containers. -/
def cells (m : Memory) : Finset (Nat ⊕ Nat) :=
  (Finset.range m.lists.size).disjSum (Finset.range m.propLists.size)

theorem cell_of_holds (h : m.Holds v w) : ∃ cell ∈ m.cells, v.cell? = some cell := by
  rw [Holds, parts_eq] at h
  cases hc : v.cell? with
  | none => simp [hc] at h
  | some cell =>
    refine ⟨cell, ?_, rfl⟩
    simp only [hc, Option.elim_some] at h
    cases cell with
    | inl cell =>
      refine Finset.inl_mem_disjSum.mpr (Finset.mem_range.mpr (Nat.lt_of_not_le fun le => ?_))
      simp [held, list, Array.getElem?_eq_none le] at h
    | inr cell =>
      refine Finset.inr_mem_disjSum.mpr (Finset.mem_range.mpr (Nat.lt_of_not_le fun le => ?_))
      simp [held, props, Array.getElem?_eq_none le, Bindings.values] at h

/-- A value in which no container leads back to itself is at most `levels` deep. -/
theorem nested_of_acyclic (h : m.Acyclic v) : m.Nested m.levels v := by
  by_contra deep
  obtain ⟨way, rfl, holds⟩ := exists_way_of_not_nested deep
  have reaches (i j : Nat) (le : i ≤ j) (hj : j ≤ m.levels) : m.Reaches (way i) (way j) := by
    induction j, le using Nat.le_induction with
    | base => exact .refl
    | succ j _ ih => exact (ih (Nat.le_of_succ_le hj)).tail (holds j hj)
  -- Of the first `levels` values on the way, two are containers of one cell.
  obtain ⟨i, hi, j, hj, ne, same⟩ :
      ∃ i ∈ Finset.range m.levels, ∃ j ∈ Finset.range m.levels, i ≠ j ∧
        (way i).cell? = (way j).cell? := by
    apply Finset.exists_ne_map_eq_of_card_lt_of_maps_to (t := m.cells.map .some)
    · simp [cells, levels]
    · intro i hi
      obtain ⟨cell, hc, eq⟩ := cell_of_holds (holds i (Finset.mem_range.mp hi))
      exact Finset.mem_map.mpr ⟨cell, hc, eq.symm⟩
  rw [Finset.mem_range] at hi hj
  -- The later one holds what comes behind the earlier one, and that leads to it.
  wlog less : i < j generalizing i j
  · exact this j hj i hi ne.symm same.symm (by omega)
  have back : m.Holds (way j) (way (i + 1)) := by
    rw [Holds, parts_eq, ← same, ← parts_eq]
    exact holds i hi
  exact h (way (i + 1)) (reaches 0 (i + 1) (Nat.zero_le _) hi)
    (.tail' (reaches (i + 1) j less (Nat.le_of_lt hj)) back)

theorem acyclic_iff : m.Acyclic v ↔ m.Nested m.levels v :=
  ⟨nested_of_acyclic, acyclic_of_nested⟩

instance (m : Memory) (v : Value) : Decidable (m.Acyclic v) :=
  decidable_of_iff' _ acyclic_iff

/-! ## What occurs in a value -/

/-- All that occurs in a value down to a depth of `n`, from left to right, containers
before their contents. -/
def occurrencesTo (m : Memory) : Nat → Value → List Value
  | 0, _ => []
  | n + 1, v => v :: (m.parts v).flatMap (m.occurrencesTo n)

/-- All that occurs in a value, as often as it occurs. -/
def occurrences (m : Memory) (v : Value) : List Value :=
  m.occurrencesTo m.levels v

theorem mem_occurrencesTo (h : m.Nested n v) : w ∈ m.occurrencesTo n v ↔ m.Reaches v w := by
  induction n generalizing v with
  | zero => exact h.elim
  | succ n ih =>
    rw [occurrencesTo, List.mem_cons, List.mem_flatMap, reaches_iff]
    exact or_congr eq_comm (exists_congr fun u => and_congr_right fun hu => ih (h u hu))

theorem mem_occurrences (h : m.Acyclic v) : w ∈ m.occurrences v ↔ m.Reaches v w :=
  mem_occurrencesTo (nested_of_acyclic h)

/-! ## Cells that are there -/

/-- The value's cell is there, and if it is a property list, it binds no name
twice. -/
def Placed (m : Memory) : Value → Prop
  | .point cell => cell < m.points.size
  | .rect cell => cell < m.rects.size
  | .list cell | .argList cell | .argListNoRet cell => cell < m.lists.size
  | .propList cell => cell < m.propLists.size ∧ (m.props cell).keys.Nodup
  | _ => True

instance (m : Memory) (v : Value) : Decidable (m.Placed v) := by
  cases v <;> dsimp only [Placed] <;> infer_instance

/-- All cells that the value leads to are there. -/
def Whole (m : Memory) (v : Value) : Prop :=
  ∀ w, m.Reaches v w → m.Placed w

theorem Whole.part (h : m.Whole v) (hw : m.Holds v w) : m.Whole w :=
  fun u hu => h u (.head hw hu)

theorem whole_iff (h : m.Acyclic v) : m.Whole v ↔ ∀ w ∈ m.occurrences v, m.Placed w :=
  forall_congr' fun _ => imp_congr_left (mem_occurrences h).symm

end Memory

end Lingo
