import Lingo.Proofs.Ancestry

/-!
# Three walks along ancestor links

`Heap.chain` lists the objects that links lead to, `Heap.ancestorAt?` follows a number of
links, and `Heap.chainDepth` counts them. The first is bounded by the objects that it
visits, the others by the links that they follow, so that the bound itself is one object
further for them.

* `Heap.Linked.chainFrom_getElem?`, `Heap.Linked.length_chainFrom`: the objects visited, in
  terms of the links followed;
* `walks_agree`: the walks agree where fewer than `maxChain` links are asked for, or where
  there are not so many;
* `walks_disagree`: they do not at the bound.
-/

namespace Lingo

namespace Heap

variable {heap : Heap} {start id : ObjectId}

/-- Every link of an object leads to an object. -/
def Linked (heap : Heap) : Prop :=
  ∀ object ∈ heap.objects.toList, ∀ next ∈ object.ancestor?, (heap.get? next).isSome

instance (heap : Heap) : Decidable heap.Linked :=
  inferInstanceAs
    (Decidable (∀ object ∈ heap.objects.toList, ∀ next ∈ object.ancestor?, (heap.get? next).isSome))

theorem Linked.live (linked : heap.Linked) {next : ObjectId} (h : heap.ancestor? id = some next) :
    (heap.get? next).isSome := by
  obtain ⟨object, hg, ha⟩ := Option.bind_eq_some_iff.mp h
  unfold get? at hg
  split at hg
  · exact linked object (Array.mem_toList_iff.mpr (Array.mem_of_getElem? hg)) next ha
  · cases hg

/-- Links lead from objects to objects. -/
theorem Linked.ascend_live (linked : heap.Linked) {n : Nat} (live : (heap.get? start).isSome)
    (h : heap.ascend n start = some id) : (heap.get? id).isSome := by
  induction n generalizing start with
  | zero =>
    cases h
    exact live
  | succ n ih =>
    obtain ⟨next, ha, hn⟩ := Option.bind_eq_some_iff.mp h
    exact ih (linked.live ha) hn

/-- Where links lead to objects only, a walk visits what they lead to. -/
theorem Linked.chainFrom_getElem? (linked : heap.Linked) (live : (heap.get? start).isSome)
    (limit k : Nat) :
    (heap.chainFrom limit start)[k]? = if k < limit then heap.ascend k start else none := by
  rw [heap.chainFrom_getElem? limit k start]
  split
  · cases h : heap.ascend k start with
    | none => rfl
    | some x => rw [Option.filter_some, if_pos (linked.ascend_live live h)]
  · rfl

/-- As many links as are counted can be followed, and no more unless the limit is
reached. -/
theorem linksFrom_eq_limit_iff (limit : Nat) :
    heap.linksFrom limit start = limit ↔ (heap.ascend limit start).isSome := by
  induction limit generalizing start with
  | zero => simp [linksFrom, ascend]
  | succ limit ih =>
    rw [linksFrom, ascend]
    cases heap.ancestor? start with
    | none => simp
    | some next => simpa using ih

/-- A walk that may visit one object more than links are counted visits one more. -/
theorem Linked.length_chainFrom (linked : heap.Linked) (live : (heap.get? start).isSome)
    (limit : Nat) : (heap.chainFrom (limit + 1) start).length = heap.linksFrom limit start + 1 := by
  induction limit generalizing start with
  | zero =>
    rw [chainFrom_succ, if_pos live]
    cases heap.ancestor? start <;> rfl
  | succ limit ih =>
    rw [chainFrom_succ, if_pos live, linksFrom]
    cases ha : heap.ancestor? start with
    | none => rfl
    | some next => exact congrArg (· + 1) (ih (linked.live ha))

/-- Fewer links than a limit lead no further than that many links. -/
theorem ascend_eq_none_of_le {n k : Nat} (few : n ≤ k) (h : heap.ascend n start = none) :
    heap.ascend k start = none := by
  induction n generalizing start k with
  | zero => cases h
  | succ n ih =>
    obtain ⟨k, rfl⟩ : ∃ j, k = j + 1 := ⟨k - 1, by omega⟩
    rw [ascend] at h ⊢
    cases ha : heap.ancestor? start with
    | none => rfl
    | some next =>
      rw [ha] at h
      exact ih (Nat.le_of_succ_le_succ few) h

/-- A limit of one more counts one link more, if there is one. -/
theorem linksFrom_succ (limit : Nat) :
    heap.linksFrom (limit + 1) start =
      heap.linksFrom limit start + if (heap.ascend (limit + 1) start).isSome then 1 else 0 := by
  induction limit generalizing start with
  | zero =>
    cases h : heap.ancestor? start <;> simp [linksFrom, ascend, h]
  | succ limit ih =>
    rw [linksFrom, linksFrom, ascend]
    cases heap.ancestor? start with
    | none => rfl
    | some next =>
      show heap.linksFrom (limit + 1) next + 1 = _
      rw [ih, Nat.add_right_comm]
      rfl

end Heap

/-- In a heap without links that lead to nothing: the object that a number of links leads
to is the one at that index of the walk, as long as fewer than `maxChain` links are asked
for or there are not so many. Where there are not, one object more is visited than links
are counted; where there are, both walks come to `maxChain`. -/
theorem walks_agree {heap : Heap} (linked : heap.Linked) {start : ObjectId}
    (live : (heap.get? start).isSome) :
    (∀ depth : Int32, 1 ≤ depth.toInt →
      depth.toInt < Heap.maxChain ∨ heap.ascend Heap.maxChain start = none →
      heap.ancestorAt? start depth = (heap.chain start)[depth.toInt.toNat]?) ∧
    (heap.ascend Heap.maxChain start = none →
      heap.chainDepth start = (heap.chain start).length - 1) ∧
    ((heap.ascend Heap.maxChain start).isSome →
      heap.chainDepth start = Heap.maxChain ∧ (heap.chain start).length = Heap.maxChain) := by
  have visited : (heap.chain start).length = heap.linksFrom (Heap.maxChain - 1) start + 1 :=
    linked.length_chainFrom live (Heap.maxChain - 1)
  have counted : heap.chainDepth start = heap.linksFrom (Heap.maxChain - 1) start +
      if (heap.ascend Heap.maxChain start).isSome then 1 else 0 :=
    Heap.linksFrom_succ (Heap.maxChain - 1)
  have walk (k : Nat) : (heap.chain start)[k]? =
      if k < Heap.maxChain then heap.ascend k start else none :=
    linked.chainFrom_getElem? live Heap.maxChain k
  refine ⟨fun depth positive few => ?same, fun few => ?fewer, fun more => ?bound⟩
  case same =>
    rw [Heap.ancestorAt?, if_neg (by omega), walk]
    split
    · rw [Nat.min_eq_left (Nat.le_of_lt ‹_›)]
    · rename_i far
      rw [Nat.min_eq_right (Nat.le_of_not_lt far)]
      exact few.resolve_left (by omega)
  case fewer =>
    rw [counted, few, visited]
    rfl
  case bound =>
    -- The hundredth link is followed from the last object visited.
    have inner : (heap.ascend (Heap.maxChain - 1) start).isSome := by
      by_contra none
      rw [Option.not_isSome_iff_eq_none] at none
      rw [Heap.ascend_eq_none_of_le (by decide) none] at more
      cases more
    have all := (Heap.linksFrom_eq_limit_iff (Heap.maxChain - 1)).mpr inner
    rw [counted, visited, all, if_pos more]
    exact ⟨rfl, rfl⟩

/-- Where the links lead in a circle, as many links are counted as objects are visited,
and the object that as many links lead to is not among them. -/
theorem walks_disagree :
    ringHeap.Linked ∧ (ringHeap.get? ⟨0, 0⟩).isSome ∧
    (ringHeap.chain ⟨0, 0⟩).length = 100 ∧ ringHeap.chainDepth ⟨0, 0⟩ = 100 ∧
    ringHeap.ancestorAt? ⟨0, 0⟩ 100 = some ⟨0, 0⟩ ∧ (ringHeap.chain ⟨0, 0⟩)[100]? = none := by
  decide +kernel

/-- Three objects, the last of which has no ancestor. -/
def lineHeap : Heap where
  objects := #[
    { properties := ⟨[("ancestor", .object ⟨0, 1⟩)]⟩ },
    { properties := ⟨[("ancestor", .object ⟨0, 2⟩)]⟩ },
    {}]

theorem walks_agree_line :
    lineHeap.ancestorAt? ⟨0, 0⟩ 2 = some ⟨0, 2⟩ ∧ lineHeap.ancestorAt? ⟨0, 0⟩ 500 = none ∧
    lineHeap.chainDepth ⟨0, 0⟩ = 2 ∧ ringHeap.ancestorAt? ⟨0, 0⟩ 99 = some ⟨0, 1⟩ ∧
    ringHeap.chainDepth ⟨0, 0⟩ = 100 := by
  have few : lineHeap.ascend Heap.maxChain ⟨0, 0⟩ = none := by decide +kernel
  have first : (lineHeap.get? ⟨0, 0⟩).isSome := rfl
  have first' : (ringHeap.get? ⟨0, 0⟩).isSome := rfl
  obtain ⟨steps, fewer, -⟩ := walks_agree (by decide +kernel) first
  obtain ⟨around, -, bound⟩ := walks_agree (by decide +kernel) first'
  refine ⟨?_, ?_, ?_, ?_, (bound (by decide +kernel)).1⟩
  · rw [steps 2 (by decide) (.inr few)]
    decide +kernel
  · rw [steps 500 (by decide) (.inr few)]
    decide +kernel
  · rw [fewer few]
    decide +kernel
  · rw [around 99 (by decide) (.inl (by decide))]
    decide +kernel

end Lingo
