import Lingo.Memory.Arithmetic
import Lingo.Memory.Likeness
import Lingo.Proofs.Copies

/-!
# Values as figures

Integers, points, rects and lists of such values, at any depth, are unfolded to trees. The
tree of a value does not change when the memory grows, and two values have the same
structure if their trees are equal:

* `Drawable.exists_figure`: a value of these kinds that does not contain itself has a tree;
* `Draws.unique`, `Draws.grow`: it has one only, and keeps it;
* `Draws.acyclic`: a value with a tree does not contain itself;
* `same_iff`: equal trees are what `Memory.same` finds.
-/

namespace Lingo

open List (Forall₂)

/-- The shape and the numbers of a value. -/
inductive Figure where
  | int (n : Int32)
  | point (p : Point)
  | rect (r : Rect)
  | list (items : List Figure)

/-- Of one of the kinds that have a figure. -/
def Value.isFigure : Value → Bool
  | .int _ | .point _ | .rect _ | .list _ => true
  | _ => false

section Pairwise

variable {α β : Type} {R : α → β → Prop}

theorem exists_forall₂ {xs : List α} (h : ∀ x ∈ xs, ∃ y, R x y) : ∃ ys, Forall₂ R xs ys := by
  induction xs with
  | nil => exact ⟨[], .nil⟩
  | cons x xs ih =>
    obtain ⟨y, hy⟩ := h x List.mem_cons_self
    obtain ⟨ys, rest⟩ := ih fun x hx => h x (List.mem_cons_of_mem _ hx)
    exact ⟨y :: ys, .cons hy rest⟩

theorem forall₂_unique {xs : List α} {ys zs : List β}
    (h : Forall₂ (fun x y => ∀ z, R x z → y = z) xs ys) (hz : Forall₂ R xs zs) : ys = zs := by
  induction h generalizing zs with
  | nil => cases hz; rfl
  | cons unique _ ih =>
    cases hz with
    | cons head tail => rw [unique _ head, ih tail]

end Pairwise

namespace Memory

open Relation (TransGen)

variable {m m' : Memory} {v w : Value} {f g : Figure} {cell n : Nat}

/-- The value, unfolded, is the figure. -/
inductive Draws (m : Memory) : Value → Figure → Prop
  | int (n : Int32) : Draws m (.int n) (.int n)
  | point {cell : Nat} {p : Point} (held : m.points[cell]? = some p) :
    Draws m (.point cell) (.point p)
  | rect {cell : Nat} {r : Rect} (held : m.rects[cell]? = some r) : Draws m (.rect cell) (.rect r)
  | list {cell : Nat} {xs : Array Value} {fs : List Figure} (held : m.lists[cell]? = some xs)
    (size : xs.toList.length = fs.length)
    (items : ∀ v f, (v, f) ∈ xs.toList.zip fs → Draws m v f) : Draws m (.list cell) (.list fs)

namespace Draws

theorem ofItems {xs : Array Value} {fs : List Figure} (held : m.lists[cell]? = some xs)
    (items : Forall₂ m.Draws xs.toList fs) : m.Draws (.list cell) (.list fs) :=
  .list held items.length_eq fun _ _ h => (List.forall₂_iff_zip.mp items).2 h

theorem items (h : m.Draws (.list cell) f) :
    ∃ xs fs, m.lists[cell]? = some xs ∧ f = .list fs ∧ Forall₂ m.Draws xs.toList fs := by
  cases h with
  | list held size items =>
    exact ⟨_, _, held, rfl, List.forall₂_iff_zip.mpr ⟨size, fun h => items _ _ h⟩⟩

/-- Induction where the elements of a list are taken together. -/
@[elab_as_elim]
theorem byItems {motive : ∀ v f, m.Draws v f → Prop} (int : ∀ n, motive _ _ (.int n))
    (point : ∀ cell p (held : m.points[cell]? = some p), motive (.point cell) _ (.point held))
    (rect : ∀ cell r (held : m.rects[cell]? = some r), motive (.rect cell) _ (.rect held))
    (list : ∀ cell xs fs (held : m.lists[cell]? = some xs) (items : Forall₂ m.Draws xs.toList fs),
      Forall₂ (fun v f => ∃ h, motive v f h) xs.toList fs →
      motive (.list cell) (.list fs) (.ofItems held items))
    (h : m.Draws v f) : motive v f h := by
  induction h with
  | int n => exact int n
  | point held => exact point _ _ held
  | rect held => exact rect _ _ held
  | list held size items ih =>
    exact list _ _ _ held (List.forall₂_iff_zip.mpr ⟨size, fun h => items _ _ h⟩)
      (List.forall₂_iff_zip.mpr ⟨size, fun h => ⟨_, ih _ _ h⟩⟩)

theorem unique (h : m.Draws v f) (h' : m.Draws v g) : f = g := by
  induction h using byItems generalizing g with
  | int n => cases h'; rfl
  | point cell p held =>
    cases h' with
    | point held' => exact congrArg _ (Option.some.inj (held.symm.trans held'))
  | rect cell r held =>
    cases h' with
    | rect held' => exact congrArg _ (Option.some.inj (held.symm.trans held'))
  | list cell xs fs held _ ih =>
    obtain ⟨ys, gs, held', rfl, items⟩ := h'.items
    cases held.symm.trans held'
    exact congrArg _ (forall₂_unique (ih.imp fun _ _ ⟨_, unique⟩ _ => unique) items)

/-- A value is the same figure when the memory grows. -/
theorem grow (h : m.Draws v f) (keeps : m.Keeps m') : m'.Draws v f := by
  induction h using byItems with
  | int n => exact .int n
  | point cell p held => exact .point (keeps.points _ _ held)
  | rect cell r held => exact .rect (keeps.rects _ _ held)
  | list cell xs fs held _ ih =>
    exact .ofItems (keeps.lists _ _ held) (ih.imp fun _ _ ⟨_, grown⟩ => grown)

end Draws

/-! ## Values that have figures -/

theorem list_parts {xs : Array Value} (held : m.lists[cell]? = some xs) :
    m.parts (.list cell) = xs.toList :=
  sequence_parts (.inl rfl) held

/-- An integer, a point, a rect, or a list that holds such values only, and not itself at any
depth. -/
structure Drawable (m : Memory) (v : Value) : Prop where
  acyclic : m.Acyclic v
  whole : m.Whole v
  kinds : ∀ w, m.Reaches v w → w.isFigure = true

theorem exists_draws (nested : m.Nested n v) (whole : m.Whole v)
    (kinds : ∀ w, m.Reaches v w → w.isFigure = true) : ∃ f, m.Draws v f := by
  induction n generalizing v with
  | zero => exact nested.elim
  | succ n ih =>
    have placed := whole v .refl
    have parts : ∀ w ∈ m.parts v, ∃ f, m.Draws w f := fun w hw =>
      ih (nested w hw) (whole.part hw) fun u hu => kinds u (.head hw hu)
    have kind := kinds v .refl
    cases v with
    | int n => exact ⟨_, .int n⟩
    | point cell => exact ⟨_, .point (Array.getElem?_eq_getElem placed)⟩
    | rect cell => exact ⟨_, .rect (Array.getElem?_eq_getElem placed)⟩
    | list cell =>
      have held := Array.getElem?_eq_getElem (show cell < m.lists.size from placed)
      rw [list_parts held] at parts
      obtain ⟨fs, items⟩ := exists_forall₂ parts
      exact ⟨_, .ofItems held items⟩
    | _ => cases kind

theorem Drawable.exists_figure (h : m.Drawable v) : ∃ f, m.Draws v f :=
  exists_draws (nested_of_acyclic h.acyclic) h.whole h.kinds

theorem Drawable.ofOccurrences (nested : m.Nested m.levels v)
    (each : ∀ w ∈ m.occurrences v, m.Placed w ∧ w.isFigure = true) : m.Drawable v :=
  have acyclic := acyclic_of_nested nested
  have each := fun w (hw : m.Reaches v w) => each w ((mem_occurrences acyclic).mpr hw)
  ⟨acyclic, fun w hw => (each w hw).1, fun w hw => (each w hw).2⟩

theorem acyclic_of_parts (h : ∀ u ∈ m.parts v, m.Acyclic u) : m.Acyclic v := by
  intro w hw circle
  rcases reaches_iff.mp hw with rfl | ⟨u, hu, reaches⟩
  · obtain ⟨u, hu, back⟩ := TransGen.head'_iff.mp circle
    exact h u hu v back circle
  · exact h u hu w reaches circle

theorem Draws.acyclic (h : m.Draws v f) : m.Acyclic v := by
  induction h using byItems with
  | list cell xs fs held items ih =>
    refine acyclic_of_parts ?_
    rw [list_parts held]
    have both : Forall₂ (fun v f => m.Acyclic v ∧ m.Draws v f) xs.toList fs :=
      ih.imp fun _ _ ⟨drawn, acyclic⟩ => ⟨acyclic, drawn⟩
    exact ((List.forall₂_and_left _ _).mp both).1
  | _ => exact acyclic_of_parts fun _ hu => nomatch hu

/-! ## The same structure -/

theorem sameElements_iff {same : Value → Value → Bool} {xs ys : Array Value}
    {fs gs : List Figure} (hx : Forall₂ m.Draws xs.toList fs) (hy : Forall₂ m.Draws ys.toList gs)
    (each : ∀ v ∈ xs.toList, ∀ w f g, m.Draws v f → m.Draws w g → (same v w = true ↔ f = g)) :
    sameElements same xs ys = true ↔ fs = gs := by
  rw [sameElements, ← Array.length_toList, ← Array.length_toList]
  generalize xs.toList = xs at hx each
  generalize ys.toList = ys at hy
  induction hx generalizing ys gs with
  | nil => cases hy <;> simp
  | @cons v f _ _ first _ ih =>
    cases hy with
    | nil => simp
    | @cons w g _ _ second rest =>
      have heads := each v List.mem_cons_self w f g first second
      have tails := ih (fun u hu => each u (List.mem_cons_of_mem _ hu)) _ rest
      rw [List.cons.injEq, ← heads, ← tails]
      simp [and_left_comm]

theorem sameTo_iff (nested : m.Nested n v) (hv : m.Draws v f) (hw : m.Draws w g) :
    m.sameTo n v w = true ↔ f = g := by
  induction n generalizing v w f g with
  | zero => exact nested.elim
  | succ n ih =>
    -- A handle is like itself, without a look at its contents.
    have self : v = w → f = g := by
      rintro rfl
      exact hv.unique hw
    cases hv using Draws.byItems with
    | int n => cases hw <;> simp [sameTo]
    | point cell p held =>
      cases hw with
      | point held' => simpa [sameTo, Memory.point, held, held'] using self
      | _ => simp [sameTo]
    | rect cell r held =>
      cases hw with
      | rect held' => simpa [sameTo, Memory.rect, held, held'] using self
      | _ => simp [sameTo]
    | list cell xs fs held items =>
      cases hw using Draws.byItems with
      | list cell' ys gs held' items' =>
        have parts : ∀ u ∈ xs.toList, m.Nested n u := list_parts held ▸ nested
        have elements : sameElements (m.sameTo n) xs ys = true ↔ fs = gs :=
          sameElements_iff items items' fun u hu _ _ _ => ih (parts u hu)
        simpa [sameTo, list_eq held, list_eq held', elements] using self
      | _ => simp [sameTo]

/-- Two values have the same structure if they are the same figure. -/
theorem same_iff (hv : m.Draws v f) (hw : m.Draws w g) : m.same v w = true ↔ f = g :=
  sameTo_iff (nested_of_acyclic hv.acyclic) hv hw

end Memory

end Lingo
