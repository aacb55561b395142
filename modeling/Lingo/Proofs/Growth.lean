import Lingo.Builtin.Function
import Lingo.Memory.Arithmetic
import Lingo.Method.List
import Lingo.Method.PropList
import Lingo.Proofs.Handles

/-!
# Computations that keep script objects

`Growing f` says that a computation on the memory does not clear the heap of
script objects, makes no object one of another script, and does not break off. All
that the interpreter computes on the memory is put together from such computations
and from writes with a key (`PropListMethod.writeKey`), which may break off. Only
copies and new objects add to the heap at all; the others are `quiet`.

`PropListMethod.run_acts` says what the methods of property lists do.
-/

namespace Lingo

variable {α β : Type}

namespace Alloc

variable {R : Memory → Memory → Prop} (refl : ∀ m, R m m)
  (trans : ∀ {m₁ m₂ m₃}, R m₁ m₂ → R m₂ m₃ → R m₁ m₃) {f : α → Alloc β}
  (h : ∀ v m, R m (f v m).2)
include refl trans h

/-- One computation after the other leads where each of them leads. -/
theorem mapM_leads (xs : List α) (m : Memory) : R m (xs.mapM f m).2 := by
  induction xs generalizing m with
  | nil => exact refl m
  | cons x xs ih =>
    rw [List.mapM_cons]
    exact trans (h x m) (ih (f x m).2)

theorem mapM_array_leads (xs : Array α) (m : Memory) : R m (xs.mapM f m).2 := by
  have same : R m ((Array.toList <$> xs.mapM f) m).2 := by
    rw [Array.toList_mapM]
    exact mapM_leads refl trans h xs.toList m
  exact same

end Alloc

/-- The second memory has all objects of the first and the scripts that they are of, and
is not broken unless the first is. -/
structure Memory.Grows (m m' : Memory) : Prop where
  heap : m.heap.Grows m'.heap
  broken : m'.broken = m.broken

namespace Memory.Grows

theorem refl (m : Memory) : m.Grows m :=
  ⟨.refl m.heap, rfl⟩

theorem trans {m₁ m₂ m₃ : Memory} (h : m₁.Grows m₂) (h' : m₂.Grows m₃) : m₁.Grows m₃ :=
  ⟨h.heap.trans h'.heap, h'.broken.trans h.broken⟩

theorem of_eq {m m' : Memory} (heap : m'.heap = m.heap) (broken : m'.broken = m.broken) :
    m.Grows m' :=
  ⟨.of_eq heap, broken⟩

end Memory.Grows

/-- Keeps all objects and the scripts that they are of, and does not break off. -/
def Growing (f : Alloc α) : Prop :=
  ∀ m : Memory, m.Grows (f m).2

namespace Growing

protected theorem pure (v : α) : Growing (pure v : Alloc α) :=
  .refl

protected theorem bind {f : Alloc α} {g : α → Alloc β} (hf : Growing f)
    (hg : ∀ v, Growing (g v)) : Growing (f >>= g) :=
  fun m => (hf m).trans (hg (f m).1 (f m).2)

theorem read {f : Memory → Alloc α} (h : ∀ m, Growing (f m)) : Growing (get >>= f) :=
  fun m => h m m

/-- Computations that leave the heap alone. -/
theorem quiet {f : Alloc α} (heap : ∀ m : Memory, (f m).2.heap = m.heap)
    (broken : ∀ m : Memory, (f m).2.broken = m.broken) : Growing f :=
  fun m => .of_eq (heap m) (broken m)

/-- Changes that leave the heap alone. -/
protected theorem modify {f : Memory → Memory} (heap : ∀ m, (f m).heap = m.heap)
    (broken : ∀ m, (f m).broken = m.broken) : Growing (modify f : Alloc Unit) :=
  quiet heap broken

theorem modifyHeap {f : Heap → Heap} (h : ∀ heap : Heap, heap.Grows (f heap)) :
    Growing (modify (·.modifyHeap f) : Alloc Unit) :=
  fun m => ⟨h m.heap, rfl⟩

theorem mapM {f : α → Alloc β} (h : ∀ v, Growing (f v)) (xs : List α) : Growing (xs.mapM f) :=
  Alloc.mapM_leads .refl .trans h xs

theorem mapM_array {f : α → Alloc β} (h : ∀ v, Growing (f v)) (xs : Array α) :
    Growing (xs.mapM f) :=
  Alloc.mapM_array_leads .refl .trans h xs

/-! ## Cells and objects -/

theorem newList (items : Array Value) : Growing (Alloc.newList items) :=
  quiet (fun _ => rfl) fun _ => rfl

theorem newArgList (items : Array Value) : Growing (Alloc.newArgList items) :=
  quiet (fun _ => rfl) fun _ => rfl

theorem newArgListNoRet (items : Array Value) : Growing (Alloc.newArgListNoRet items) :=
  quiet (fun _ => rfl) fun _ => rfl

theorem newPropList (entries : Bindings Value) : Growing (Alloc.newPropList entries) :=
  quiet (fun _ => rfl) fun _ => rfl

theorem newPoint (p : Point) : Growing (Alloc.newPoint p) :=
  quiet (fun _ => rfl) fun _ => rfl

theorem newRect (r : Rect) : Growing (Alloc.newRect r) :=
  quiet (fun _ => rfl) fun _ => rfl

theorem newObject (object : Object) : Growing (Alloc.newObject object) :=
  fun m => ⟨.alloc object m.heap, rfl⟩

theorem cloneObject? (id : ObjectId) : Growing (Alloc.cloneObject? id) := by
  intro m
  simp only [Alloc.cloneObject?, modifyGet, MonadStateOf.modifyGet, StateT.modifyGet]
  cases h : m.heap.clone? id with
  | none => exact .refl m
  | some made => exact ⟨.clone h, rfl⟩

/-! ## Copies and arithmetic -/

theorem copyTo (fuel : Nat) (v : Value) : Growing (Memory.copyTo fuel v) := by
  induction fuel generalizing v with
  | zero => exact .pure v
  | succ fuel ih =>
    have items (xs : Array Value) : Growing (xs.mapM (Memory.copyTo fuel)) := mapM_array ih xs
    cases v with
    | point => exact .read fun _ => .newPoint _
    | rect => exact .read fun _ => .newRect _
    | list => exact .read fun _ => .bind (items _) fun _ => .newList _
    | argList => exact .read fun _ => .bind (items _) fun _ => .newArgList _
    | argListNoRet => exact .read fun _ => .bind (items _) fun _ => .newArgListNoRet _
    | propList =>
      refine .read fun _ => .bind (mapM ?_ _) fun _ => .newPropList _
      rintro ⟨key, value⟩
      exact .bind (ih value) fun _ => .pure _
    | object id =>
      refine .bind (cloneObject? id) fun copy? => ?_
      cases copy? <;> exact .pure _
    | _ => exact .pure _

theorem copy (v : Value) : Growing (Memory.copy v) :=
  .read fun _ => copyTo _ v

theorem combineTo (op : ArithOp) (fuel : Nat) (a b : Value) :
    Growing (Memory.combineTo op fuel a b) := by
  induction fuel generalizing a b with
  | zero => exact .pure _
  | succ fuel ih =>
    have points : Growing (Memory.combinePoints op a b) :=
      .read fun _ => .read fun _ => .newPoint _
    have rects : Growing (Memory.combineRects op a b) := .read fun _ => .read fun _ => .newRect _
    unfold Memory.combineTo
    split
    · exact points
    · exact points
    · exact rects
    · exact rects
    · exact .read fun _ => .bind (mapM_array (fun _ => ih _ _) _) fun _ => .newList _
    · exact .read fun _ => .bind (mapM_array (fun _ => ih _ _) _) fun _ => .newList _
    · exact .read fun _ => .bind (mapM_array (fun _ => ih _ _) _) fun _ => .newList _
    · exact .pure _

theorem combine (op : ArithOp) (a b : Value) : Growing (Memory.combine op a b) :=
  .read fun _ => combineTo op _ a b

theorem negate (a : Value) : Growing (Memory.negate a) := by
  cases a with
  | point => exact .read fun _ => .newPoint _
  | _ => exact .pure _

end Growing

/-! ## Methods and functions -/

namespace PropListMethod

/-- What a method does to the property list in a cell. -/
inductive Acts (cell : Nat) : Alloc Value → Prop
  | look {f : Alloc Value} (h : ∀ m, (f m).2 = m) : Acts cell f
  | bind (key value : Value) : Acts cell do bind cell key value; return .void
  | erase (key : Value) :
    Acts cell do writeKey cell key fun name entries => entries.erase name; return .void
  | setIdx (i : Nat) (value : Value) :
    Acts cell do modify (·.modifyProps cell (·.setIdx i value)); return .void
  | copy : Acts cell (Memory.copy (.propList cell))

theorem Acts.read {cell : Nat} {f : Memory → Alloc Value} (h : ∀ m m', (f m m').2 = m') :
    Acts cell (get >>= f) :=
  .look fun m => h m m

theorem run_acts (cell : Nat) (args : Array Value) (method : PropListMethod) :
    Acts cell (method.run cell args) := by
  cases method with
  | duplicate => exact .copy
  | count | getLast => exact .look fun _ => rfl
  | getAt =>
    simp only [run]
    split
    · exact .look fun _ => rfl
    · split
      · exact .look fun _ => rfl
      · split <;> exact .look fun _ => rfl
  | getProp | getPropAt | findPos =>
    simp only [run]
    split <;> exact .look fun _ => rfl
  | setProp =>
    simp only [run]
    split
    · exact .bind _ _
    · exact .look fun _ => rfl
  | deleteProp =>
    simp only [run]
    split
    · exact .erase _
    · exact .look fun _ => rfl
  | setAt =>
    simp only [run]
    split
    · split
      · split
        · exact .setIdx _ _
        · exact .look fun _ => rfl
      · exact .bind _ _
    · exact .look fun _ => rfl
  | getOne =>
    simp only [run]
    split
    · refine .read fun m m' => ?_
      rcases (m.props cell).entries.find? _ with _ | ⟨_, _⟩ <;> rfl
    · exact .look fun _ => rfl

end PropListMethod

namespace Growing

/-- A change of a cell before a result. -/
theorem edit {f : Memory → Memory} (heap : ∀ m, (f m).heap = m.heap)
    (broken : ∀ m, (f m).broken = m.broken) (v : α) : Growing (do modify f; return v) :=
  .bind (.modify heap broken) fun _ => .pure v

theorem listMethod (policy : AddAtPolicy) (cell : Nat) (args : Array Value) (method : ListMethod) :
    Growing (method.run policy cell args) := by
  cases method with
  | duplicate => exact copy _
  | sort => exact edit (f := ListMethod.sortCell cell) (fun _ => rfl) (fun _ => rfl) _
  | count | getLast | join => exact .read fun _ => .pure _
  | getAt | findPos =>
    simp only [ListMethod.run]
    split
    · exact .read fun _ => .pure _
    · exact .pure _
  | setAt | append | addAt | deleteAt =>
    simp only [ListMethod.run]
    split
    · apply edit <;> exact fun _ => rfl
    · exact .pure _
  | deleteOne =>
    simp only [ListMethod.run]
    split
    · refine .read fun m => ?_
      split
      · apply edit <;> exact fun _ => rfl
      · exact .pure _
    · exact .pure _

theorem function (args : Array Value) (f : Function) : Growing (f.run args) := by
  refine .read fun m => ?_
  cases f with
  | point => exact newPoint _
  | rect => exact newRect _
  | list => exact newList _
  | abs =>
    dsimp only
    split <;> exact .pure _
  | ilk =>
    dsimp only
    split <;> exact .pure _
  | _ => exact .pure _

end Growing

end Lingo
