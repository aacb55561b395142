import Mathlib.Algebra.Order.Ring.Nat
import Lingo.Heap

/-!
# Handles

A `HeapOp` is what can be done with a heap of script objects. Objects are only
added to a heap, and a handle is the place of its object, so that a handle is
good until the heap is cleared; after that the generation tells it from the
handles that are given out anew.

* `Heap.issued_ne`: no handle is given out twice before the heap is cleared;
* `Heap.isSome_after_iff`: exactly when a handle still addresses an object, after
  whatever operations. Generations are counted modulo `2 ^ 32`;
* `Heap.Grows`: a heap that comes about without being cleared. It keeps all
  objects of the heap before, and the scripts that they are of.
-/

namespace Lingo

/-- An operation on a heap. -/
inductive HeapOp where
  | alloc (object : Object)
  | clone (id : ObjectId)
  | modify (id : ObjectId) (f : Object → Object)
  | clear

namespace HeapOp

/-- The handle that an operation gives out, if it does, and the heap after it. -/
def apply : HeapOp → Heap → Option ObjectId × Heap
  | alloc object, heap => (some (heap.alloc object).1, (heap.alloc object).2)
  | clone id, heap =>
    match heap.clone? id with
    | some (copy, heap') => (some copy, heap')
    | none => (none, heap)
  | modify id f, heap => (none, heap.modify id f)
  | clear, heap => (none, heap.clear)

def isClear : HeapOp → Bool
  | clear => true
  | _ => false

/-- The operation neither clears the heap nor makes an object one of another
script. -/
def Keeps : HeapOp → Prop
  | alloc _ | clone _ => True
  | modify _ f => ∀ object, (f object).script = object.script
  | clear => False

end HeapOp

namespace Heap

/-- The heap after some operations. -/
def after (heap : Heap) (ops : List HeapOp) : Heap :=
  ops.foldl (fun heap op => (op.apply heap).2) heap

@[simp] theorem after_nil (heap : Heap) : heap.after [] = heap := rfl

@[simp] theorem after_cons (heap : Heap) (op : HeapOp) (ops : List HeapOp) :
    heap.after (op :: ops) = (op.apply heap).2.after ops := rfl

theorem after_append (heap : Heap) (ops later : List HeapOp) :
    heap.after (ops ++ later) = (heap.after ops).after later :=
  List.foldl_append

variable {heap : Heap} {id : ObjectId}

/-! ## One operation -/

theorem get?_isSome_iff :
    (heap.get? id).isSome ↔ id.generation = heap.generation ∧ id.index < heap.objects.size := by
  unfold get?
  by_cases h : id.generation = heap.generation <;> simp [h]

theorem modify_size (heap : Heap) (id : ObjectId) (f : Object → Object) :
    (heap.modify id f).objects.size = heap.objects.size := by
  unfold modify
  split <;> simp

theorem modify_generation (heap : Heap) (id : ObjectId) (f : Object → Object) :
    (heap.modify id f).generation = heap.generation := by
  unfold modify
  split <;> rfl

/-- A handle can be used to change an object if it addresses one. -/
theorem get?_modify (heap : Heap) (id : ObjectId) (f : Object → Object) :
    (heap.modify id f).get? id = (heap.get? id).map f := by
  unfold get? modify
  by_cases h : id.generation = heap.generation
  · simp [h, Array.getElem?_modify]
  · simp [h]

theorem get?_modify_ne (heap : Heap) (f : Object → Object) {target : ObjectId} (h : target ≠ id) :
    (heap.modify target f).get? id = heap.get? id := by
  unfold get? modify
  by_cases ht : target.generation = heap.generation
  · by_cases hi : id.generation = heap.generation
    · have other : target.index ≠ id.index := by
        intro same
        apply h
        cases target
        cases id
        simp_all
      simp [ht, hi, Array.getElem?_modify, other]
    · simp [ht, hi]
  · simp [ht]

/-- Otherwise nothing changes. -/
theorem modify_of_none (h : heap.get? id = none) (f : Object → Object) : heap.modify id f = heap := by
  unfold modify
  split
  · rename_i hg
    rw [get?, if_pos hg, Array.getElem?_eq_none_iff] at h
    congr 1
    apply Array.ext_getElem?
    intro i
    rw [Array.getElem?_modify]
    split
    · rename_i hi
      subst hi
      simp [h]
    · rfl
  · rfl

/-- A handle that is given out is the next one of its generation. -/
theorem issued_eq {op : HeapOp} (h : (op.apply heap).1 = some id) :
    id = ⟨heap.generation, heap.objects.size⟩ ∧
      (op.apply heap).2.generation = heap.generation ∧
      (op.apply heap).2.objects.size = heap.objects.size + 1 := by
  cases op with
  | alloc object =>
    cases h
    exact ⟨rfl, rfl, Array.size_push ..⟩
  | clone source =>
    simp only [HeapOp.apply, clone?] at h ⊢
    cases hs : heap.get? source with
    | none => simp [hs] at h
    | some object =>
      simp only [hs, Option.map_some, Option.some.injEq] at h
      subst h
      exact ⟨rfl, rfl, Array.size_push ..⟩
  | modify | clear => cases h

theorem apply_generation (op : HeapOp) (heap : Heap) :
    (op.apply heap).2.generation = heap.generation + UInt32.ofNat (if op.isClear then 1 else 0) := by
  cases op with
  | clear => rfl
  | alloc object => exact (UInt32.add_zero _).symm
  | clone source =>
    simp only [HeapOp.apply, clone?]
    cases heap.get? source <;> exact (UInt32.add_zero _).symm
  | modify id f => exact (modify_generation heap id f).trans (UInt32.add_zero _).symm

theorem size_le_apply {op : HeapOp} (h : op.isClear = false) (heap : Heap) :
    heap.objects.size ≤ (op.apply heap).2.objects.size := by
  cases op with
  | alloc object => simp [HeapOp.apply, alloc]
  | clone source =>
    simp only [HeapOp.apply, clone?]
    cases heap.get? source <;> simp [alloc]
  | modify id f => exact Nat.le_of_eq (modify_size heap id f).symm
  | clear => cases h

/-- The objects of a heap are found among more objects. -/
theorem get?_push {object : Object} (h : heap.get? id = some object) (added : Object) :
    (heap.alloc added).2.get? id = some object := by
  have bound := (get?_isSome_iff.mp (Option.isSome_of_eq_some h)).2
  unfold Heap.get? at h ⊢
  simp only [alloc]
  rw [Array.getElem?_push_lt bound]
  rwa [Array.getElem?_eq_getElem bound] at h

theorem get?_apply {op : HeapOp} (keeps : op.Keeps) {object : Object}
    (h : heap.get? id = some object) :
    ∃ object', (op.apply heap).2.get? id = some object' ∧ object'.script = object.script := by
  cases op with
  | alloc added => exact ⟨object, get?_push h added, rfl⟩
  | clone source =>
    simp only [HeapOp.apply, clone?]
    cases heap.get? source with
    | none => exact ⟨object, h, rfl⟩
    | some added => exact ⟨object, get?_push h added, rfl⟩
  | modify target f =>
    show ∃ object', (heap.modify target f).get? id = some object' ∧ _
    by_cases same : target = id
    · subst same
      rw [get?_modify, h]
      exact ⟨f object, rfl, keeps object⟩
    · rw [get?_modify_ne heap f same]
      exact ⟨object, h, rfl⟩
  | clear => exact keeps.elim

/-! ## Operations in a row -/

/-- How often the heap is cleared. -/
def clears (ops : List HeapOp) : Nat :=
  ops.countP HeapOp.isClear

theorem clears_cons (op : HeapOp) (ops : List HeapOp) :
    clears (op :: ops) = (if op.isClear then 1 else 0) + clears ops := by
  rw [clears, List.countP_cons, Nat.add_comm]
  rfl

theorem after_generation (ops : List HeapOp) (heap : Heap) :
    (heap.after ops).generation = heap.generation + UInt32.ofNat (clears ops) := by
  induction ops generalizing heap with
  | nil => exact (UInt32.add_zero _).symm
  | cons op ops ih =>
    rw [after_cons, ih, apply_generation, clears_cons, UInt32.add_assoc, UInt32.ofNat_add]

theorem size_le_after {ops : List HeapOp} (h : clears ops = 0) (heap : Heap) :
    heap.objects.size ≤ (heap.after ops).objects.size := by
  induction ops generalizing heap with
  | nil => exact Nat.le_refl _
  | cons op ops ih =>
    rw [clears_cons] at h
    cases first : op.isClear with
    | true => simp [first] at h
    | false => exact Nat.le_trans (size_le_apply first heap) (ih (by omega) _)

/-- A generation comes round after `2 ^ 32` others. -/
theorem generation_add_eq (g : UInt32) (k : Nat) : g = g + UInt32.ofNat k ↔ 2 ^ 32 ∣ k := by
  rw [← UInt32.toNat_inj, UInt32.toNat_add, UInt32.toNat_ofNat']
  have := g.toNat_lt
  omega

/-- A handle addresses an object as long as there are so many, unless the heap is
cleared; and then again whenever its generation comes round. -/
theorem isSome_after_iff {op : HeapOp} (h : (op.apply heap).1 = some id) (later : List HeapOp) :
    (((op.apply heap).2.after later).get? id).isSome ↔
      2 ^ 32 ∣ clears later ∧ id.index < ((op.apply heap).2.after later).objects.size := by
  obtain ⟨rfl, generation, -⟩ := issued_eq h
  rw [get?_isSome_iff, after_generation, generation, generation_add_eq]

/-- In particular it does not address what has taken the place of its object. -/
theorem get?_after_cleared {op : HeapOp} (h : (op.apply heap).1 = some id) {later : List HeapOp}
    (cleared : 0 < clears later) (few : clears later < 2 ^ 32) :
    ((op.apply heap).2.after later).get? id = none := by
  rw [← Option.not_isSome_iff_eq_none, isSome_after_iff h]
  rintro ⟨round, -⟩
  exact absurd (Nat.le_of_dvd cleared round) (by omega)

/-- Between two operations that give out handles, the heap is cleared or grows. -/
theorem issued_ne {first second : HeapOp} {id' : ObjectId} {between : List HeapOp}
    (h : (first.apply heap).1 = some id) (kept : clears between = 0)
    (h' : (second.apply ((first.apply heap).2.after between)).1 = some id') : id ≠ id' := by
  obtain ⟨rfl, -, size⟩ := issued_eq h
  obtain ⟨rfl, -, -⟩ := issued_eq h'
  have grown := size_le_after kept (first.apply heap).2
  intro same
  have := congrArg ObjectId.index same
  dsimp only at this
  omega

/-! ## Heaps that are not cleared -/

/-- The second heap comes of the first without clearing it, and no object becomes
one of another script. -/
def Grows (heap heap' : Heap) : Prop :=
  ∃ ops : List HeapOp, (∀ op ∈ ops, op.Keeps) ∧ heap.after ops = heap'

namespace Grows

variable {heap₁ heap₂ : Heap}

theorem refl (heap : Heap) : Grows heap heap :=
  ⟨[], by simp, rfl⟩

theorem of_eq (h : heap₁ = heap) : Grows heap heap₁ :=
  h ▸ refl heap

theorem trans (h₁ : Grows heap heap₁) (h₂ : Grows heap₁ heap₂) : Grows heap heap₂ := by
  obtain ⟨ops, kept, rfl⟩ := h₁
  obtain ⟨later, kept', rfl⟩ := h₂
  refine ⟨ops ++ later, fun op hop => ?_, after_append heap ops later⟩
  rcases List.mem_append.mp hop with hop | hop
  · exact kept op hop
  · exact kept' op hop

theorem apply (op : HeapOp) (h : op.Keeps) (heap : Heap) : Grows heap (op.apply heap).2 :=
  ⟨[op], by simpa using h, rfl⟩

theorem alloc (object : Object) (heap : Heap) : Grows heap (heap.alloc object).2 :=
  apply (.alloc object) trivial heap

theorem clone {copy : ObjectId} (h : heap.clone? id = some (copy, heap₁)) : Grows heap heap₁ := by
  have grown := apply (.clone id) trivial heap
  simp only [HeapOp.apply, h] at grown
  exact grown

theorem modify {f : Object → Object} (same : ∀ o, (f o).script = o.script) (id : ObjectId)
    (heap : Heap) : Grows heap (heap.modify id f) :=
  apply (.modify id f) same heap

theorem setOwn (heap : Heap) (id : ObjectId) (name : String) (value : Value) :
    Grows heap (heap.setOwn id name value) :=
  modify (f := fun o => { o with properties := o.properties.insert name value }) (fun _ => rfl) id
    heap

theorem setProperty (heap : Heap) (id : ObjectId) (name : String) (value : Value) :
    Grows heap (heap.setProperty id name value) :=
  setOwn heap _ name value

/-- What is added never takes the place of an object. -/
theorem size_le (h : Grows heap heap₁) : heap.objects.size ≤ heap₁.objects.size := by
  obtain ⟨ops, kept, rfl⟩ := h
  apply size_le_after
  rw [clears, List.countP_eq_zero]
  intro op hop hc
  have keeps := kept op hop
  cases op <;> simp [HeapOp.isClear, HeapOp.Keeps] at hc keeps

/-- A handle goes on addressing its object, and that keeps its script. -/
theorem get? (h : Grows heap heap₁) {object : Object} (hid : heap.get? id = some object) :
    ∃ object', heap₁.get? id = some object' ∧ object'.script = object.script := by
  obtain ⟨ops, kept, rfl⟩ := h
  induction ops generalizing heap object with
  | nil => exact ⟨object, hid, rfl⟩
  | cons op ops ih =>
    have keeps := kept op (List.mem_cons_self ..)
    obtain ⟨object₁, hid₁, same⟩ := get?_apply keeps hid
    obtain ⟨object', hid', same'⟩ := ih hid₁ fun op hop => kept op (List.mem_cons_of_mem _ hop)
    exact ⟨object', hid', same'.trans same⟩

end Grows

end Heap

end Lingo
