import Mathlib.Data.List.Basic
import Lingo.Assembly.Assemble

/-!
# Tables in order of first use

The table of names of a library and the tables of literals of its scripts are
filled in the same way: what is not in the table yet is added at its end
(`enter`). So the numbers that come of a text are in order of first use
(`FirstUse`): each is known already or is the next one.

* `Names.Interned` says what interning names does to their table;
* `Names.internAll_upTo`, `internLiteral_take`: when entries of a finished table
  are looked up in order of first use in what of the table was there before,
  they get their numbers again, and the table is filled again.
-/

namespace Lingo

/-! ## Tables -/

section

variable {α : Type} (same : α → α → Bool)

/-- The number of an entry in a table, to whose end it is added if it is new. -/
def enter (table : List α) (x : α) : Nat × List α :=
  match table.findIdx? (same · x) with
  | some i => (i, table)
  | none => (table.length, table ++ [x])

/-- No two entries of a table are the same. -/
def Distinct (table : List α) : Prop :=
  table.Pairwise fun x y => same x y = false

variable {same} {table : List α} {x : α}

theorem enter_cases (same : α → α → Bool) (table : List α) (x : α) :
    (∃ i, ∃ h : i < table.length, enter same table x = (i, table) ∧ same table[i] x = true) ∨
      enter same table x = (table.length, table ++ [x]) ∧ ∀ y ∈ table, same y x = false := by
  unfold enter
  cases found : table.findIdx? (same · x) with
  | some i =>
    obtain ⟨h, alike, -⟩ := List.findIdx?_eq_some_iff_getElem.mp found
    exact .inl ⟨i, h, rfl, alike⟩
  | none => exact .inr ⟨rfl, List.findIdx?_eq_none_iff.mp found⟩

theorem prefix_enter (same : α → α → Bool) (table : List α) (x : α) :
    table <+: (enter same table x).2 := by
  rcases enter_cases same table x with ⟨i, h, eq, -⟩ | ⟨eq, -⟩
  · simp only [eq, List.prefix_rfl]
  · rw [eq]
    exact List.prefix_append table [x]

theorem mem_enter {y : α} (h : y ∈ (enter same table x).2) : y ∈ table ∨ y = x := by
  rcases enter_cases same table x with ⟨i, -, eq, -⟩ | ⟨eq, -⟩
  · rw [eq] at h
    exact .inl h
  · rw [eq] at h
    simpa using h

theorem distinct_enter (h : Distinct same table) : Distinct same (enter same table x).2 := by
  rcases enter_cases same table x with ⟨i, -, eq, -⟩ | ⟨eq, new⟩
  · rw [eq]
    exact h
  · rw [eq]
    refine List.pairwise_append.mpr ⟨h, List.pairwise_singleton _ _, fun y hy z hz => ?_⟩
    rw [List.mem_singleton.mp hz]
    exact new y hy

/-- In a table without repetitions, what was entered is found where it was. -/
theorem enter_getElem (h : Distinct same table) {i : Nat} (hi : i < table.length)
    (like : same table[i] table[i] = true) : enter same table table[i] = (i, table) := by
  have found : table.findIdx? (same · table[i]) = some i := by
    refine List.findIdx?_eq_some_iff_getElem.mpr ⟨hi, like, fun j hj => ?_⟩
    rw [List.pairwise_iff_getElem.mp h j i (by omega) hi hj]
    exact Bool.false_ne_true
  rw [enter, found]

/-- An entry of a finished table gets its number again, once those before it are
there. -/
theorem enter_take (h : Distinct same table) {i k : Nat} (hi : i < table.length)
    (like : same table[i] table[i] = true) (hik : i ≤ k) :
    enter same (table.take k) table[i] = (i, table.take (max k (i + 1))) := by
  rcases Nat.lt_or_eq_of_le hik with known | rfl
  · have inside : i < (table.take k).length := by
      rw [List.length_take]
      omega
    have here : (table.take k)[i] = table[i] := List.getElem_take
    have again := enter_getElem (h.sublist (List.take_sublist k table)) inside
      (by rw [here]; exact like)
    rw [here] at again
    rw [again, Nat.max_eq_left known]
  · have new : (table.take i).findIdx? (same · table[i]) = none := by
      refine List.findIdx?_eq_none_iff.mpr fun y hy => ?_
      obtain ⟨j, hj, rfl⟩ := List.getElem_of_mem hy
      rw [List.length_take] at hj
      rw [List.getElem_take]
      exact List.pairwise_iff_getElem.mp h j i (by omega) hi (by omega)
    rw [enter, new, Nat.max_eq_right (Nat.le_succ i), List.take_succ_eq_append_getElem hi]
    simp only [List.length_take, Nat.min_eq_left (Nat.le_of_lt hi)]

end

/-! ## Order of first use -/

/-- Numbers in order of first use, when `k` have been used before and `k'` have
been used afterwards. -/
def FirstUse : Nat → List Int32 → Nat → Prop
  | k, [], k' => k' = k
  | k, id :: ids, k' => ∃ i ≤ k, id = Int32.ofNat i ∧ FirstUse (max k (i + 1)) ids k'

theorem firstUse_append {k k' : Nat} {ids ids' : List Int32} :
    FirstUse k (ids ++ ids') k' ↔ ∃ j, FirstUse k ids j ∧ FirstUse j ids' k' := by
  induction ids generalizing k with
  | nil => exact ⟨fun h => ⟨k, rfl, h⟩, fun ⟨j, same, h⟩ => same ▸ h⟩
  | cons id ids ih =>
    constructor
    · rintro ⟨i, hi, eq, h⟩
      obtain ⟨j, first, rest⟩ := ih.mp h
      exact ⟨j, ⟨i, hi, eq, first⟩, rest⟩
    · rintro ⟨j, ⟨i, hi, eq, first⟩, rest⟩
      exact ⟨i, hi, eq, ih.mpr ⟨j, first, rest⟩⟩

theorem FirstUse.le {k k' : Nat} {ids : List Int32} (h : FirstUse k ids k') : k ≤ k' := by
  induction ids generalizing k with
  | nil => exact Nat.le_of_eq h.symm
  | cons id ids ih =>
    obtain ⟨i, -, -, h⟩ := h
    exact Nat.le_trans (Nat.le_max_left _ _) (ih h)

theorem FirstUse.lt {k k' : Nat} {ids : List Int32} (h : FirstUse k ids k') {id : Int32}
    (hid : id ∈ ids) : ∃ i < k', id = Int32.ofNat i := by
  induction ids generalizing k with
  | nil => exact absurd hid List.not_mem_nil
  | cons first ids ih =>
    obtain ⟨i, -, eq, h⟩ := h
    rcases List.mem_cons.mp hid with rfl | hid
    · exact ⟨i, Nat.lt_of_lt_of_le (Nat.lt_of_lt_of_le (Nat.lt_succ_self i)
        (Nat.le_max_right k (i + 1))) h.le, eq⟩
    · exact ih h hid

theorem firstUse_enter {α : Type} (same : α → α → Bool) (table : List α) (x : α) :
    FirstUse table.length [Int32.ofNat (enter same table x).1] (enter same table x).2.length := by
  rcases enter_cases same table x with ⟨i, h, eq, -⟩ | ⟨eq, -⟩
  · rw [eq]
    exact ⟨i, Nat.le_of_lt h, rfl, (Nat.max_eq_left h).symm⟩
  · rw [eq]
    refine ⟨table.length, Nat.le_refl _, rfl, ?_⟩
    rw [FirstUse, List.length_append, List.length_singleton]
    exact (Nat.max_eq_right (Nat.le_succ _)).symm

theorem toInt_ofNat {i : Nat} (h : i < 2147483648) : (Int32.ofNat i).toInt = i := by
  rw [Int32.toInt_ofNat_of_lt h]

/-! ## Literals -/

theorem internLiteral_eq (literals : Array Literal) (x : Literal) :
    Assembly.internLiteral literals x =
      (Int32.ofNat (enter Literal.same literals.toList x).1,
        (enter Literal.same literals.toList x).2.toArray) := by
  obtain ⟨literals⟩ := literals
  rw [Assembly.internLiteral, enter, List.findIdx?_toArray]
  cases literals.findIdx? (·.same x) <;> simp

/-- A literal of a finished table gets its number again. -/
theorem internLiteral_take {literals : Array Literal} (h : Distinct Literal.same literals.toList)
    {i k : Nat} {x : Literal} (hx : literals[i]? = some x) (like : x.same x = true) (hik : i ≤ k) :
    Assembly.internLiteral (literals.toList.take k).toArray x =
      (Int32.ofNat i, (literals.toList.take (max k (i + 1))).toArray) := by
  obtain ⟨hi, rfl⟩ := Array.getElem?_eq_some_iff.mp hx
  rw [internLiteral_eq, ← Array.getElem_toList hi]
  rw [enter_take h hi like hik]

/-! ## Names -/

namespace Names

/-- The names in the order of their numbers. -/
abbrev list (names : Names) : List String :=
  names.entries.toList

/-- The first `k` names. -/
def upTo (names : Names) (k : Nat) : Names :=
  ⟨(names.list.take k).toArray⟩

theorem upTo_size (names : Names) : names.upTo names.list.length = names := by
  rw [upTo, List.take_length]

theorem find?_eq (names : Names) (name : String) :
    names.find? name = (names.list.findIdx? (Text.sameName · name)).map Int32.ofNat := by
  obtain ⟨⟨entries⟩⟩ := names
  rw [find?, List.findIdx?_toArray]

theorem intern_eq (names : Names) (name : String) :
    names.intern name =
      (Int32.ofNat (enter Text.sameName names.list name).1,
        ⟨(enter Text.sameName names.list name).2.toArray⟩) := by
  rw [intern, find?_eq, enter]
  cases names.list.findIdx? (Text.sameName · name) with
  | some i => rfl
  | none => simp only [Option.map_none, ← Array.toList_push, Array.toArray_toList, Array.length_toList]

theorem find?_getElem {names : Names} (h : Distinct Text.sameName names.list) {i : Nat}
    (hi : i < names.list.length) : names.find? names.list[i] = some (Int32.ofNat i) := by
  have found : names.list.findIdx? (Text.sameName · names.list[i]) = some i := by
    refine List.findIdx?_eq_some_iff_getElem.mpr ⟨hi, Text.sameName_refl _, fun j hj => ?_⟩
    rw [List.pairwise_iff_getElem.mp h j i (by omega) hi hj]
    exact Bool.false_ne_true
  rw [find?_eq, found, Option.map_some]

theorem find?_mono {names names' : Names} (h : names.list <+: names'.list) {name : String}
    {id : Int32} (found : names.find? name = some id) : names'.find? name = some id := by
  obtain ⟨added, grown⟩ := h
  rw [find?_eq, Option.map_eq_some_iff] at found
  obtain ⟨i, hi, rfl⟩ := found
  rw [find?_eq, ← grown, List.findIdx?_append, hi, Option.some_or, Option.map_some]

/-- What interning names does to a table. -/
structure Interned (names : Names) (added : List String) (ids : List Int32) (names' : Names) :
    Prop where
  grows : names.list <+: names'.list
  uses : FirstUse names.list.length ids names'.list.length
  found : added.map names'.find? = ids.map some
  distinct : Distinct Text.sameName names.list → Distinct Text.sameName names'.list
  mem : ∀ name ∈ names'.list, name ∈ names.list ∨ name ∈ added

theorem Interned.nil (names : Names) : Interned names [] [] names where
  grows := List.prefix_refl _
  uses := rfl
  found := rfl
  distinct := id
  mem := fun _ h => .inl h

theorem interned_intern (names : Names) (name : String) :
    Interned names [name] [(names.intern name).1] (names.intern name).2 := by
  rw [intern_eq]
  refine ⟨prefix_enter _ _ _, firstUse_enter _ _ _, ?_, distinct_enter, fun other h => ?_⟩
  · rw [List.map_singleton, List.map_singleton, find?_eq, enter]
    cases found : names.list.findIdx? (Text.sameName · name) with
    | some i => simp only [found, Option.map_some]
    | none =>
      have here : (names.list ++ [name]).findIdx? (Text.sameName · name) =
          some names.list.length := by
        rw [List.findIdx?_append, found, Option.none_or]
        simp [Text.sameName_refl]
      simp only [here, Option.map_some]
  · rcases mem_enter h with h | rfl
    · exact .inl h
    · exact .inr List.mem_cons_self

theorem Interned.append {names names' names'' : Names} {added added' : List String}
    {ids ids' : List Int32} (h : Interned names added ids names')
    (h' : Interned names' added' ids' names'') :
    Interned names (added ++ added') (ids ++ ids') names'' where
  grows := h.grows.trans h'.grows
  uses := firstUse_append.mpr ⟨_, h.uses, h'.uses⟩
  found := by
    rw [List.map_append, List.map_append, h'.found]
    congr 1
    have kept : ∀ (added : List String) (ids : List Int32),
        added.map names'.find? = ids.map some → added.map names''.find? = ids.map some := by
      intro added
      induction added with
      | nil => exact fun _ h => h
      | cons name added ih =>
        intro ids h
        cases ids with
        | nil => cases h
        | cons id ids =>
          obtain ⟨head, tail⟩ := List.cons.inj h
          rw [List.map_cons, List.map_cons, find?_mono h'.grows head, ih ids tail]
    exact kept added ids h.found
  distinct := fun d => h'.distinct (h.distinct d)
  mem := by
    intro name hname
    rcases h'.mem name hname with hname | hname
    · exact (h.mem name hname).imp_right (List.mem_append_left _)
    · exact .inr (List.mem_append_right _ hname)

theorem interned_internAll (names : Names) (added : List String) :
    Interned names added (names.internAll added).1 (names.internAll added).2 := by
  induction added generalizing names with
  | nil => exact .nil names
  | cons name added ih =>
    exact (interned_intern names name).append (ih (names.intern name).2)

section

variable {names : Names}

theorem name_ofNat (small : names.list.length ≤ 2147483648) {i : Nat}
    (hi : i < names.list.length) : names.name (Int32.ofNat i) = names.list[i] := by
  have toInt := toInt_ofNat (Nat.lt_of_lt_of_le hi small)
  have here : names.entries[i]? = some names.list[i] := by
    rw [← Array.getElem?_toList, List.getElem?_eq_getElem hi]
  rw [name, get?, toInt, if_neg (by omega), Int.toNat_natCast, here, Option.getD_some]

variable (small : names.list.length ≤ 2147483648) (distinct : Distinct Text.sameName names.list)
include small distinct

theorem intern_upTo {i k : Nat} (hi : i < names.list.length) (hik : i ≤ k) :
    (names.upTo k).intern (names.name (Int32.ofNat i)) =
      (Int32.ofNat i, names.upTo (max k (i + 1))) := by
  rw [name_ofNat small hi, intern_eq]
  have again := enter_take distinct hi (Text.sameName_refl _) hik
  rw [upTo, again]
  rfl

/-- Names of a finished table get their numbers again, in order of first use. -/
theorem internAll_upTo {ids : List Int32} {k k' : Nat} (uses : FirstUse k ids k')
    (inside : k' ≤ names.list.length) :
    (names.upTo k).internAll (ids.map names.name) = (ids, names.upTo k') := by
  induction ids generalizing k with
  | nil =>
    rw [show k' = k from uses]
    rfl
  | cons id ids ih =>
    obtain ⟨i, hik, rfl, rest⟩ := uses
    have bound := rest.le
    rw [List.map_cons, internAll, intern_upTo small distinct (by omega) hik]
    simp only [ih rest]

theorem find?_upTo {id : Int32} {k : Nat} (inside : k ≤ names.list.length)
    (hid : ∃ i < k, id = Int32.ofNat i) : (names.upTo k).find? (names.name id) = some id := by
  obtain ⟨i, hik, rfl⟩ := hid
  have hi : i < names.list.length := Nat.lt_of_lt_of_le hik inside
  have within : i < (names.upTo k).list.length := by
    rw [upTo, List.length_take]
    omega
  have here : (names.upTo k).list[i] = names.list[i] := List.getElem_take
  rw [name_ofNat small hi, ← here]
  exact find?_getElem (distinct.sublist (List.take_sublist k _)) within

end

end Names

end Lingo
