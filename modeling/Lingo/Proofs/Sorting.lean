import Mathlib.Data.Nat.Basic
import Mathlib.Order.RelClasses
import Lingo.Builtin.Builtin
import Lingo.Proofs.Cells
import Lingo.Proofs.Routine

/-!
# Sorting lists

A list is sorted by one comparison, which looks at numbers as numbers and at anything else as
a text. On a list of integers, and on one without numbers, it compares by one key throughout
(`ComparedBy`), and then a stable sort does what it should:

* `ComparedBy.ordersAll`, `ComparedBy.sorts`: the comparison is a total preorder, and merging
  by it sorts the elements and keeps the order of equal ones;
* `text_of_element`: while a list is being sorted it counts as empty, which the texts of its
  elements do not depend on, as none of them contains the list;
* `sort_sorts`: what the method makes of the cell, for all who hold it.
-/

namespace Lingo

open Machine
open Host (perform)

/-- The comparison is a total preorder on the elements. -/
structure OrdersAll (cmp : Value → Value → Ordering) (items : List Value) : Prop where
  swap : ∀ a ∈ items, ∀ b ∈ items, cmp b a = (cmp a b).swap
  trans : ∀ a ∈ items, ∀ b ∈ items, ∀ c ∈ items,
    (cmp a b).isLE = true → (cmp b c).isLE = true → (cmp a c).isLE = true

/-- The second list has the elements of the first in ascending order, and those that compare
equal in the order that they had. -/
structure Sorts (cmp : Value → Value → Ordering) (items sorted : List Value) : Prop where
  perm : sorted.Perm items
  ascending : sorted.Pairwise fun a b => (cmp a b).isLE = true
  stable : ∀ v ∈ items, sorted.filter (cmp v · == .eq) = items.filter (cmp v · == .eq)

/-- The elements compare as their keys do. -/
def ComparedBy {κ : Type} [Ord κ] (key : Value → κ) (cmp : Value → Value → Ordering)
    (items : List Value) : Prop :=
  ∀ a ∈ items, ∀ b ∈ items, cmp a b = compare (key a) (key b)

/-- The test that elements are merged by. -/
theorem bne_gt_eq_isLE (o : Ordering) : (o != .gt) = o.isLE := by
  cases o <;> rfl

/-- How elements are merged depends on how they compare with each other. -/
theorem mergeSort_congr {le le' : Value → Value → Bool} {items : List Value}
    (same : ∀ a ∈ items, ∀ b ∈ items, le a b = le' a b) :
    items.mergeSort le = items.mergeSort le' := by
  simpa using List.map_mergeSort (f := id) (l := items) same

namespace ComparedBy

variable {κ : Type} [Ord κ] [Std.TransOrd κ] {key : Value → κ}
  {cmp : Value → Value → Ordering} {items : List Value}

theorem ordersAll (h : ComparedBy key cmp items) : OrdersAll cmp items where
  swap a ha b hb := by
    rw [h a ha b hb, h b hb a ha]
    exact Std.OrientedCmp.eq_swap
  trans a ha b hb c hc := by
    rw [h a ha b hb, h b hb c hc, h a ha c hc]
    exact Std.TransCmp.isLE_trans

theorem sorts (h : ComparedBy key cmp items) :
    Sorts cmp items (items.mergeSort fun a b => cmp a b != .gt) := by
  rw [mergeSort_congr fun a ha b hb => by rw [bne_gt_eq_isLE, h a ha b hb]]
  have perm := List.mergeSort_perm items fun a b => (compare (key a) (key b)).isLE
  have trans (a b c : Value) : (compare (key a) (key b)).isLE = true →
      (compare (key b) (key c)).isLE = true → (compare (key a) (key c)).isLE = true :=
    Std.TransCmp.isLE_trans
  have total (a b : Value) :
      ((compare (key a) (key b)).isLE || (compare (key b) (key a)).isLE) = true := by
    rw [Std.OrientedOrd.eq_swap (a := key b)]
    cases compare (key a) (key b) <;> rfl
  refine ⟨perm, ?ascending, fun v hv => ?stable⟩
  case ascending =>
    refine (List.pairwise_mergeSort trans total items).imp_of_mem fun ha hb le => ?_
    rwa [h _ (perm.subset ha) _ (perm.subset hb)]
  case stable =>
    -- Elements that compare equal are in ascending order as they stand.
    have ascending : (items.filter (cmp v · == .eq)).Pairwise
        fun a b => (compare (key a) (key b)).isLE = true := by
      refine List.pairwise_of_forall_mem_list fun a ha b hb => ?_
      obtain ⟨ha, isA⟩ := List.mem_filter.mp ha
      obtain ⟨hb, isB⟩ := List.mem_filter.mp hb
      rw [beq_iff_eq, h v hv _ ‹_›] at isA isB
      rw [Std.TransCmp.congr_left (Std.OrientedCmp.eq_symm isA), isB]
      rfl
    have within := (List.sublist_mergeSort trans total ascending List.filter_sublist).filter
      (cmp v · == .eq)
    rw [List.filter_filter] at within
    simp only [Bool.and_self] at within
    exact (within.eq_of_length (perm.filter _).length_eq.symm).symm

end ComparedBy

/-- A list in ascending order is as it is sorted. -/
theorem mergeSort_of_ascending {cmp : Value → Value → Ordering} {items : List Value}
    (ascending : items.Pairwise fun a b => (cmp a b).isLE = true) :
    (items.mergeSort fun a b => cmp a b != .gt) = items :=
  List.mergeSort_of_pairwise (ascending.imp fun le => (bne_gt_eq_isLE _).trans le)

namespace Memory

open Relation (TransGen)

variable {m : Memory} {cell : Nat} {a b v : Value}

/-- All integers, or no numbers and none with itself in it. -/
def Sortable (m : Memory) (items : List Value) : Prop :=
  (∀ v ∈ items, ∃ n, v = .int n) ∨ ∀ v ∈ items, v.isNumber = false ∧ m.Acyclic v

/-- The text of an element of a list does not depend on what else is in the list, unless the
element contains the list. -/
theorem text_of_element (mem : v ∈ (m.list cell).toList) (acyclic : m.Acyclic v)
    (f : Array Value → Array Value) : (m.modifyList cell f).text v = m.text v := by
  refine text_congr acyclic (fun w hw => ?_) (by simp [levels, modifyList])
  have other (c : Nat) (is : w.cell? = some (.inl c)) :
      (m.modifyList cell f).list c = m.list c := by
    refine list_modifyList_ne m f fun eq => acyclic w hw (.head' (b := v) ?_ hw)
    rw [Holds, parts_eq, is, eq]
    exact mem
  cases w <;> first | trivial | exact other _ rfl

theorem sortOrder_ints (items : List Value) (ints : ∀ v ∈ items, ∃ n, v = .int n) (m : Memory) :
    ComparedBy (fun v => v.toInt32.toInt) m.sortOrder items := by
  intro a ha b hb
  obtain ⟨x, rfl⟩ := ints a ha
  obtain ⟨y, rfl⟩ := ints b hb
  rfl

theorem sortOrder_texts (ha : a.isNumber = false) (m : Memory) (b : Value) :
    m.sortOrder a b = compare (Text.lowercase (m.text a)) (Text.lowercase (m.text b)) := by
  cases a with
  | int | float => cases ha
  | _ => rfl

/-- A list that can be sorted is compared by one key, which is that of the text or that of
the number. -/
theorem Sortable.ordered {items : List Value} (h : m.Sortable items) :
    OrdersAll m.sortOrder items ∧
      Sorts m.sortOrder items (items.mergeSort fun a b => m.sortOrder a b != .gt) := by
  rcases h with ints | texts
  · have compared := sortOrder_ints items ints m
    exact ⟨compared.ordersAll, compared.sorts⟩
  · have compared : ComparedBy (fun v => Text.lowercase (m.text v)) m.sortOrder items :=
      fun a ha b _ => sortOrder_texts (texts a ha).1 m b
    exact ⟨compared.ordersAll, compared.sorts⟩

/-- Whatever else is in the list meanwhile, its elements compare in one way. -/
theorem Sortable.sortOrder_eq (h : m.Sortable (m.list cell).toList)
    (f : Array Value → Array Value) (ha : a ∈ (m.list cell).toList)
    (hb : b ∈ (m.list cell).toList) :
    (m.modifyList cell f).sortOrder a b = m.sortOrder a b := by
  rcases h with ints | texts
  · exact (sortOrder_ints _ ints _ a ha b hb).trans (sortOrder_ints _ ints m a ha b hb).symm
  · rw [sortOrder_texts (texts a ha).1, sortOrder_texts (texts a ha).1,
      text_of_element ha (texts a ha).2, text_of_element hb (texts b hb).2]

theorem modifyList_modifyList (m : Memory) (cell : Nat) (f g : Array Value → Array Value) :
    (m.modifyList cell f).modifyList cell g = m.modifyList cell fun items => g (f items) := by
  refine congrArg (fun lists => { m with lists }) (Array.ext_getElem? fun i => ?_)
  simp only [modifyList, Array.getElem?_modify]
  split
  · rw [Option.map_map]
    rfl
  · rfl

theorem modifyList_list (m : Memory) (cell : Nat) :
    (m.modifyList cell fun _ => m.list cell) = m := by
  refine congrArg (fun lists => { m with lists }) (Array.ext_getElem? fun i => ?_)
  rw [Array.getElem?_modify]
  split
  · rename_i same
    subst same
    cases held : m.lists[cell]? with
    | none => rfl
    | some items => simp [list, held]
  · rfl

/-- What is put into the cell is there, if it is no more than there was. -/
theorem list_modifyList_perm {items : List Value} (perm : items.Perm (m.list cell).toList) :
    (m.modifyList cell fun _ => items.toArray).list cell = items.toArray := by
  rcases Nat.lt_or_ge cell m.lists.size with placed | absent
  · exact list_modifyList _ placed
  · have empty : m.list cell = #[] := by rw [list, Array.getElem?_eq_none absent]; rfl
    rw [empty] at perm
    rw [perm.eq_nil, list, Array.getElem?_eq_none (by simpa [modifyList] using absent)]
    rfl

/-- While the list is being sorted its elements compare as they do before. -/
theorem sortCell_modifyList (h : m.Sortable (m.list cell).toList) {items : List Value}
    (perm : items.Perm (m.list cell).toList) :
    ListMethod.sortCell cell (m.modifyList cell fun _ => items.toArray) =
      m.modifyList cell fun _ =>
        (items.mergeSort fun a b => m.sortOrder a b != .gt).toArray := by
  unfold ListMethod.sortCell ListMethod.sorted
  dsimp only
  have emptied : (m.modifyList cell fun _ => items.toArray).modifyList cell (fun _ => #[]) =
      m.modifyList cell fun _ => #[] := modifyList_modifyList m cell _ _
  rw [list_modifyList_perm perm, emptied, modifyList_modifyList]
  dsimp only
  rw [mergeSort_congr fun a ha b hb =>
    by rw [h.sortOrder_eq _ (perm.subset ha) (perm.subset hb)]]

end Memory

/-- A method of a list is called on its cell, and changes nothing but the memory. -/
theorem perform_listMethod {c : Calls} {m : Machine} {cell : Nat} {method : String}
    {f : ListMethod} {args : Array Value} (is : ListMethod.table.find? method = some f) :
    perform (callMethod c (.list cell) method args) m =
      (.ok (f.run m.config.addAtPolicy cell args m.memory).1,
        { m with memory := (f.run m.config.addAtPolicy cell args m.memory).2 }) := by
  show perform (sure (callList cell method args)) m = _
  rw [perform_sure, callList, is]
  rfl

/-- The method `sort` sorts what is in the cell of a list, for all who hold it, and nothing
else changes. The elements compare before it as after it, and when they are sorted again they
stay where they are. -/
theorem sort_sorts {c : Calls} {m : Machine} {cell : Nat} {method : String}
    (args : Array Value) (is : Text.asciiLower method = "sort")
    (sortable : m.memory.Sortable (m.memory.list cell).toList) :
    let old := (m.memory.list cell).toList
    ∃ new : List Value,
      let m' := { m with memory := m.memory.modifyList cell fun _ => new.toArray }
      perform (callMethod c (.list cell) method args) m = (.ok .void, m') ∧
      (m'.memory.list cell).toList = new ∧
      OrdersAll m.memory.sortOrder old ∧ Sorts m.memory.sortOrder old new ∧
      (∀ a ∈ old, ∀ b ∈ old, m'.memory.sortOrder a b = m.memory.sortOrder a b) ∧
      perform (callMethod c (.list cell) method args) m' = (.ok .void, m') := by
  intro old
  have found : ListMethod.table.find? method = some .sort := by
    rw [MethodTable.find?, is]
    rfl
  have run (m : Machine) : perform (callMethod c (.list cell) method args) m =
      (.ok .void, { m with memory := ListMethod.sortCell cell m.memory }) :=
    perform_listMethod found
  obtain ⟨ordersAll, sorts⟩ := sortable.ordered
  refine ⟨_, ?once, ?held, ordersAll, sorts, ?same, ?again⟩
  case once =>
    have sorted := Memory.sortCell_modifyList sortable (.refl _)
    rw [Array.toArray_toList, Memory.modifyList_list] at sorted
    rw [run, sorted]
  case held => exact congrArg Array.toList (Memory.list_modifyList_perm sorts.perm)
  case same => exact fun a ha b hb => sortable.sortOrder_eq _ ha hb
  case again =>
    have sorted := Memory.sortCell_modifyList sortable sorts.perm
    rw [mergeSort_of_ascending sorts.ascending] at sorted
    rw [run]
    dsimp only
    rw [sorted]

/-- A machine with a list of texts, a symbol and another list. -/
def mixedMachine : Machine where
  memory := { lists := #[#[.text "pear", .symbol "fig", .list 1, .text "Fig"], #[.int 1]] }

/-- The symbol and the text that compare equal stay in their order. -/
theorem sort_sorts_mixed :
    let m := mixedMachine
    let old : List Value := [.text "pear", .symbol "fig", .list 1, .text "Fig"]
    Text.asciiLower "Sort" = "sort" ∧ m.memory.Sortable old ∧
    ∃ new : List Value, new.Perm old ∧
      new.filter (m.memory.sortOrder (.symbol "fig") · == .eq) = [.symbol "fig", .text "Fig"] ∧
      perform (callMethod m.calls (.list 0) "Sort" #[]) m =
        (.ok .void, { m with memory := m.memory.modifyList 0 fun _ => new.toArray }) := by
  intro m old
  have named : Text.asciiLower "Sort" = "sort" := by decide
  have sortable : m.memory.Sortable (m.memory.list 0).toList := .inr (by decide)
  obtain ⟨new, run, -, -, sorts, -⟩ := sort_sorts (c := m.calls) #[] named sortable
  have stable := sorts.stable (.symbol "fig") (by decide)
  exact ⟨named, sortable, new, sorts.perm, stable.trans (by decide +kernel), run⟩

end Lingo
