import Mathlib.Data.List.Zip
import Lingo.Proofs.Figures

/-!
# Sums, products and negation of figures

What `Memory.combine` makes of values with figures is given by a function on figures. It
does not depend on where the cells are, so that questions about values become questions
about trees:

* `combine_yields`: the figure of a result is the combination of the operands' figures;
* `Figure.combine_comm_iff`: a sum or product of figures is the one the other way round
  unless somewhere in it a number meets a point or a rect, or a point a rect;
* `combine_commutes`: so is a sum or product of values;
* `negate_matches`: multiplication by -1 turns every number of a figure round, but negation
  does so for integers and points only.
-/

namespace Lingo

open List (Forall₂)

/-! ## Combining trees -/

namespace Figure

variable {op : ArithOp} {f g : Figure}

/-- What the figure counts as where a number is read of it. -/
def toInt32 : Figure → Int32
  | .int n => n
  | _ => 0

def intAt (fs : List Figure) (i : Nat) : Int32 :=
  (fs[i]?.map toInt32).getD 0

/-- The components of an operand that meets a point. -/
def pointParts : Figure → Point
  | .point p => p
  | .list fs => ⟨intAt fs 0, intAt fs 1⟩
  | f => ⟨f.toInt32, f.toInt32⟩

/-- The edges of an operand that meets a rect. -/
def rectParts : Figure → Rect
  | .rect r => r
  | .list fs => ⟨intAt fs 0, intAt fs 1, intAt fs 2, intAt fs 3⟩
  | f => ⟨f.toInt32, f.toInt32, f.toInt32, f.toInt32⟩

def points (op : ArithOp) (f g : Figure) : Figure :=
  .point ⟨op.ints f.pointParts.x g.pointParts.x, op.ints f.pointParts.y g.pointParts.y⟩

def rects (op : ArithOp) (f g : Figure) : Figure :=
  .rect ⟨op.ints f.rectParts.left g.rectParts.left, op.ints f.rectParts.top g.rectParts.top,
    op.ints f.rectParts.right g.rectParts.right, op.ints f.rectParts.bottom g.rectParts.bottom⟩

/-- The figure of what two values with the given figures combine to. -/
def combine (op : ArithOp) : Figure → Figure → Figure
  | .point p, g => points op (.point p) g
  | .rect r, g => rects op (.rect r) g
  | .list fs, .point q => points op (.list fs) (.point q)
  | .list fs, .rect r => rects op (.list fs) (.rect r)
  | .list fs, .list gs => .list ((fs.zip gs).attach.map fun p => combine op p.1.1 p.1.2)
  | .list fs, .int k => .list (fs.map fun f => combine op f (.int k))
  | .int n, .list gs => .list (gs.map fun g => combine op (.int n) g)
  | .int n, g => .int (op.ints n g.toInt32)
termination_by f g => sizeOf f + sizeOf g
decreasing_by
  · have left : sizeOf p.1.1 < sizeOf fs := List.sizeOf_lt_of_mem (List.of_mem_zip p.2).1
    have right : sizeOf p.1.2 < sizeOf gs := List.sizeOf_lt_of_mem (List.of_mem_zip p.2).2
    simp only [list.sizeOf_spec]
    omega
  all_goals
    have within := List.sizeOf_lt_of_mem ‹_ ∈ _›
    simp only [list.sizeOf_spec]
    omega

theorem combine_ints (n k : Int32) : combine op (.int n) (.int k) = .int (op.ints n k) := by
  rw [combine, toInt32]
  nofun

theorem combine_lists (fs gs : List Figure) :
    combine op (.list fs) (.list gs) = .list ((fs.zip gs).map fun p => combine op p.1 p.2) := by
  rw [combine]
  exact congrArg list (List.attach_map_val (f := fun p : Figure × Figure => combine op p.1 p.2))

theorem combine_list_int (fs : List Figure) (k : Int32) :
    combine op (.list fs) (.int k) = .list (fs.map fun f => combine op f (.int k)) := by
  rw [combine]

theorem combine_int_list (n : Int32) (gs : List Figure) :
    combine op (.int n) (.list gs) = .list (gs.map fun g => combine op (.int n) g) := by
  rw [combine]

/-! ### The order of operands -/

/-- Somewhere in the figures, at corresponding places, a number meets a point or a rect, or a
point a rect. -/
inductive Clash : Figure → Figure → Prop
  | intPoint (n : Int32) (p : Point) : Clash (.int n) (.point p)
  | intRect (n : Int32) (r : Rect) : Clash (.int n) (.rect r)
  | pointRect (p : Point) (r : Rect) : Clash (.point p) (.rect r)
  | intList {n : Int32} {gs : List Figure} {g : Figure} (mem : g ∈ gs) (h : Clash (.int n) g) :
    Clash (.int n) (.list gs)
  | lists {fs gs : List Figure} {f g : Figure} (mem : (f, g) ∈ fs.zip gs) (h : Clash f g) :
    Clash (.list fs) (.list gs)
  | symm {f g : Figure} (h : Clash f g) : Clash g f

theorem ints_comm (hop : op ≠ .sub) (a b : Int32) : op.ints a b = op.ints b a := by
  cases op with
  | add => exact Int32.add_comm a b
  | sub => exact absurd rfl hop
  | mul => exact Int32.mul_comm a b

theorem points_comm (hop : op ≠ .sub) (f g : Figure) : points op f g = points op g f := by
  rw [points, points, ints_comm hop, ints_comm hop f.pointParts.y]

theorem rects_comm (hop : op ≠ .sub) (f g : Figure) : rects op f g = rects op g f := by
  rw [rects, rects, ints_comm hop, ints_comm hop f.rectParts.top,
    ints_comm hop f.rectParts.right, ints_comm hop f.rectParts.bottom]

/-- The results for the pairs the other way round, in the order of the pairs. -/
theorem map_zip_comm (fs gs : List Figure) :
    ((gs.zip fs).map fun p => combine op p.1 p.2) =
      (fs.zip gs).map fun p => combine op p.2 p.1 := by
  rw [← List.zip_swap fs gs, List.map_map]
  rfl

theorem combine_comm (hop : op ≠ .sub) (clear : ¬ f.Clash g) :
    f.combine op g = g.combine op f := by
  induction f, g using combine.induct with
  | case1 p g =>
    cases g with
    | int n => exact absurd (.symm (.intPoint n p)) clear
    | rect r => exact absurd (.pointRect p r) clear
    | _ =>
      rw [combine, combine]
      exact points_comm hop _ _
  | case2 r g =>
    cases g with
    | int n => exact absurd (.symm (.intRect n r)) clear
    | point p => exact absurd (.symm (.pointRect p r)) clear
    | _ =>
      rw [combine, combine]
      exact rects_comm hop _ _
  | case3 fs q =>
    rw [combine, combine]
    exact points_comm hop _ _
  | case4 fs r =>
    rw [combine, combine]
    exact rects_comm hop _ _
  | case5 fs gs ih =>
    rw [combine_lists, combine_lists, map_zip_comm fs gs]
    exact congrArg list (List.map_congr_left fun p mem => ih ⟨p, mem⟩ fun h => clear (.lists mem h))
  | case6 fs k ih =>
    rw [combine_list_int, combine_int_list]
    exact congrArg list (List.map_congr_left fun f mem =>
      ih f mem fun h => clear (.symm (.intList mem h.symm)))
  | case7 n gs ih =>
    rw [combine_list_int, combine_int_list]
    exact congrArg list (List.map_congr_left fun g mem => ih g mem fun h => clear (.intList mem h))
  | case8 n g noList =>
    cases g with
    | int k =>
      rw [combine_ints, combine_ints]
      exact congrArg int (ints_comm hop n k)
    | point p => exact absurd (.intPoint n p) clear
    | rect r => exact absurd (.intRect n r) clear
    | list gs => exact absurd rfl (noList gs)

theorem Clash.combine_ne (h : f.Clash g) : f.combine op g ≠ g.combine op f := by
  induction h with
  | intPoint n p => simp [combine, points]
  | intRect n r => simp [combine, rects]
  | pointRect p r => simp [combine, points, rects]
  | intList mem _ ih =>
    rw [combine_int_list, combine_list_int]
    exact fun same => ih (List.map_inj_left.mp (list.inj same) _ mem)
  | @lists fs gs _ _ mem _ ih =>
    rw [combine_lists, combine_lists, map_zip_comm fs gs]
    exact fun same => ih (List.map_inj_left.mp (list.inj same) (_, _) mem)
  | symm _ ih => exact ih.symm

theorem combine_comm_iff (hop : op ≠ .sub) :
    f.combine op g = g.combine op f ↔ ¬ f.Clash g :=
  ⟨fun same clash => clash.combine_ne same, combine_comm hop⟩

/-! ### Every number turned round -/

def opposite : Figure → Figure
  | .int n => .int (-n)
  | .point p => .point ⟨-p.x, -p.y⟩
  | .rect r => .rect ⟨-r.left, -r.top, -r.right, -r.bottom⟩
  | .list fs => .list (fs.map fun f => opposite f)

theorem combine_minus_one (f : Figure) : f.combine .mul (.int (-1)) = f.opposite := by
  have turn (n : Int32) : ArithOp.mul.ints n (-1) = -n := by
    rw [ArithOp.ints, Int32.mul_neg, Int32.mul_one]
  induction f using opposite.induct with
  | case1 n => rw [combine_ints, opposite, turn]
  | case2 p =>
    rw [combine, opposite]
    simp only [points, pointParts, toInt32, turn]
  | case3 r =>
    rw [combine, opposite]
    simp only [rects, rectParts, toInt32, turn]
  | case4 fs ih =>
    rw [combine_list_int, opposite]
    exact congrArg list (List.map_congr_left ih)

end Figure

/-! ## Combining values -/

theorem forall₂_zip {α β γ δ : Type} {R : α → β → Prop} {S : γ → δ → Prop} {xs : List α}
    {fs : List β} {ys : List γ} {gs : List δ} (hx : Forall₂ R xs fs) (hy : Forall₂ S ys gs) :
    Forall₂ (fun p q => R p.1 q.1 ∧ S p.2 q.2) (xs.zip ys) (fs.zip gs) := by
  induction hx generalizing ys gs with
  | nil => exact .nil
  | cons head _ ih =>
    cases hy with
    | nil => exact .nil
    | cons head' tail' => exact .cons ⟨head, head'⟩ (ih tail')

namespace Memory

open Alloc

variable {m m₁ : Memory} {op : ArithOp} {a b v : Value} {f g : Figure} {n k fuel : Nat}

/-- An operation has added to the memory, and its result is the figure. -/
structure Yields (m : Memory) (made : Value × Memory) (f : Figure) : Prop where
  keeps : m.Keeps made.2
  draws : made.2.Draws made.1 f

theorem newPoint_yields (m : Memory) (p : Point) : m.Yields (newPoint p m) (.point p) :=
  ⟨{ Keeps.refl m with points := .push _ _ }, .point Array.getElem?_push_size⟩

theorem newRect_yields (m : Memory) (r : Rect) : m.Yields (newRect r m) (.rect r) :=
  ⟨{ Keeps.refl m with rects := .push _ _ }, .rect Array.getElem?_push_size⟩

theorem mapM_yields {α : Type} {F : α → Alloc Value} {xs : List α} {fs : List Figure}
    (each : Forall₂ (fun x f => ∀ m₁, m.Keeps m₁ → m₁.Yields (F x m₁) f) xs fs)
    (keeps : m.Keeps m₁) :
    m₁.Keeps (xs.mapM F m₁).2 ∧ Forall₂ (xs.mapM F m₁).2.Draws (xs.mapM F m₁).1 fs := by
  induction each generalizing m₁ with
  | nil => exact ⟨.refl _, .nil⟩
  | cons head _ ih =>
    rw [List.mapM_cons]
    have first := head m₁ keeps
    have rest := ih (keeps.trans first.keeps)
    exact ⟨first.keeps.trans rest.1, .cons (first.draws.grow rest.1) rest.2⟩

theorem newList_yields {α : Type} {F : α → Alloc Value} {xs : Array α} {fs : List Figure}
    (each : Forall₂ (fun x f => ∀ m₁, m.Keeps m₁ → m₁.Yields (F x m₁) f) xs.toList fs)
    (keeps : m.Keeps m₁) :
    m₁.Yields ((xs.mapM F >>= newList : Alloc Value) m₁) (.list fs) := by
  have items : Array.toList <$> xs.mapM F = xs.toList.mapM F := Array.toList_mapM
  have parts := mapM_yields each keeps
  rw [← items] at parts
  have push := keeps_pushList (xs.mapM F m₁).2 (xs.mapM F m₁).1
  exact ⟨parts.1.trans push, .ofItems Array.getElem?_push_size
    (parts.2.imp fun _ _ drawn => drawn.grow push)⟩

theorem Draws.toInt32 (h : m.Draws v f) : v.toInt32 = f.toInt32 := by
  cases h <;> rfl

section

variable {cell : Nat} {xs : Array Value} {fs : List Figure}

theorem intAt_eq (held : m.lists[cell]? = some xs) (items : Forall₂ m.Draws xs.toList fs)
    (i : Nat) : m.intAt cell i = Figure.intAt fs i := by
  have numbers : xs.toList.map Value.toInt32 = fs.map Figure.toInt32 := by
    rw [← List.forall₂_eq_eq_eq, List.forall₂_map_left_iff, List.forall₂_map_right_iff]
    exact items.imp fun _ _ drawn => drawn.toInt32
  rw [Memory.intAt, list_eq held, ← Array.getElem?_toList, ← List.getElem?_map, numbers,
    List.getElem?_map, Figure.intAt]

/-- The elements of a list that is drawn are nested one level less. -/
theorem nested_elements (held : m.lists[cell]? = some xs)
    (items : Forall₂ m.Draws xs.toList fs) (nested : m.Nested (n + 1) (.list cell)) :
    Forall₂ (fun v f => m.Nested n v ∧ m.Draws v f) xs.toList fs :=
  have parts : ∀ v ∈ xs.toList, m.Nested n v := list_parts held ▸ nested
  (List.forall₂_and_left _ _).mpr ⟨parts, items⟩

end

theorem Draws.pointParts (h : m.Draws v f) : m.pointParts v = f.pointParts := by
  cases h using byItems with
  | int n => rfl
  | point cell p held => simp [Memory.pointParts, Memory.point, held, Figure.pointParts]
  | rect cell r held => rfl
  | list cell xs fs held items =>
    simp only [Memory.pointParts, intAt_eq held items, Figure.pointParts]

theorem Draws.rectParts (h : m.Draws v f) : m.rectParts v = f.rectParts := by
  cases h using byItems with
  | int n => rfl
  | point cell p held => rfl
  | rect cell r held => simp [Memory.rectParts, Memory.rect, held, Figure.rectParts]
  | list cell xs fs held items =>
    simp only [Memory.rectParts, intAt_eq held items, Figure.rectParts]

theorem combinePoints_yields (ha : m.Draws a f) (hb : m.Draws b g) :
    m.Yields (combinePoints op a b m) (Figure.points op f g) := by
  rw [Figure.points, ← ha.pointParts, ← hb.pointParts]
  exact newPoint_yields m _

theorem combineRects_yields (ha : m.Draws a f) (hb : m.Draws b g) :
    m.Yields (combineRects op a b m) (Figure.rects op f g) := by
  rw [Figure.rects, ← ha.rectParts, ← hb.rectParts]
  exact newRect_yields m _

theorem Draws.scalar {n : Int32} (hb : m.Draws b g) (noList : ∀ gs, g ≠ .list gs) :
    m.Draws (Value.scalar op (.int n) b) (Figure.combine op (.int n) g) := by
  have number : Figure.combine op (.int n) g = .int (op.ints n g.toInt32) := by
    rw [Figure.combine]
    exact noList
  rw [number, ← hb.toInt32]
  cases hb <;> exact .int _

theorem combineTo_lists (op : ArithOp) (fuel : Nat) {cell cell' : Nat} {xs ys : Array Value}
    (hx : m.lists[cell]? = some xs) (hy : m.lists[cell']? = some ys) :
    combineTo op (fuel + 1) (.list cell) (.list cell') m =
      ((xs.zip ys).mapM (fun p => combineTo op fuel p.1 p.2) >>= newList : Alloc Value) m := by
  rw [← list_eq hx, ← list_eq hy]
  rfl

theorem combineTo_list_int (op : ArithOp) (fuel : Nat) (j : Int32) {cell : Nat}
    {xs : Array Value} (held : m.lists[cell]? = some xs) :
    combineTo op (fuel + 1) (.list cell) (.int j) m =
      (xs.mapM (fun v => combineTo op fuel v (.int j)) >>= newList : Alloc Value) m := by
  rw [← list_eq held]
  rfl

theorem combineTo_int_list (op : ArithOp) (fuel : Nat) (i : Int32) {cell : Nat}
    {xs : Array Value} (held : m.lists[cell]? = some xs) :
    combineTo op (fuel + 1) (.int i) (.list cell) m =
      (xs.mapM (fun v => combineTo op fuel (.int i) v) >>= newList : Alloc Value) m := by
  rw [← list_eq held]
  rfl

/-- Combining goes deep enough, and makes what it should. -/
theorem combineTo_yields (ha : m.Draws a f) (hb : m.Draws b g) (na : m.Nested n a)
    (kb : m.Nested k b) (enough : n + k ≤ fuel) (keeps : m.Keeps m₁) :
    m₁.Yields (combineTo op fuel a b m₁) (f.combine op g) := by
  induction fuel generalizing n k a b f g m₁ with
  | zero =>
    obtain rfl : n = 0 := by omega
    exact na.elim
  | succ fuel ih =>
    cases n with
    | zero => exact na.elim
    | succ n =>
    cases k with
    | zero => exact kb.elim
    | succ k =>
    have drawnA := ha.grow keeps
    have drawnB := hb.grow keeps
    cases ha using Draws.byItems with
    | point =>
      rw [Figure.combine]
      exact combinePoints_yields drawnA drawnB
    | rect =>
      rw [Figure.combine]
      exact combineRects_yields drawnA drawnB
    | int i =>
      cases hb using Draws.byItems with
      | list cell ys gs held items =>
        have elements := nested_elements held items kb
        rw [Figure.combine_int_list, combineTo_int_list op fuel i (keeps.lists _ _ held)]
        refine newList_yields (List.forall₂_map_right_iff.mpr ?_) keeps
        exact elements.imp fun _ _ v _ keeps => ih (.int i) v.2 na v.1 (by omega) keeps
      | _ => exact ⟨.refl _, drawnB.scalar nofun⟩
    | list cell xs fs held items =>
      have elements := nested_elements held items na
      cases hb using Draws.byItems with
      | point =>
        rw [Figure.combine]
        exact combinePoints_yields drawnA drawnB
      | rect =>
        rw [Figure.combine]
        exact combineRects_yields drawnA drawnB
      | int j =>
        rw [Figure.combine_list_int, combineTo_list_int op fuel j (keeps.lists _ _ held)]
        refine newList_yields (List.forall₂_map_right_iff.mpr ?_) keeps
        exact elements.imp fun _ _ v _ keeps => ih v.2 (.int j) v.1 kb (by omega) keeps
      | list cell' ys gs held' items' =>
        have elements' := nested_elements held' items' kb
        rw [Figure.combine_lists,
          combineTo_lists op fuel (keeps.lists _ _ held) (keeps.lists _ _ held')]
        refine newList_yields ?_ keeps
        rw [Array.toList_zip, List.forall₂_map_right_iff]
        exact (forall₂_zip elements elements').imp fun _ _ v _ keeps =>
          ih v.1.2 v.2.2 v.1.1 v.2.1 (by omega) keeps

theorem combine_yields (op : ArithOp) (ha : m.Draws a f) (hb : m.Draws b g) :
    m.Yields (combine op a b m) (f.combine op g) :=
  combineTo_yields ha hb (nested_of_acyclic ha.acyclic) (nested_of_acyclic hb.acyclic)
    (Nat.two_mul _).ge (.refl m)

/-- A sum or product of values is the combination of their figures. It has the same structure
as the one with the operands the other way round unless the operands clash. -/
theorem combine_commutes (hop : op ≠ .sub) (ha : m.Drawable a) (hb : m.Drawable b) :
    ∃ f g, m.Draws a f ∧ m.Draws b g ∧
      let sum := combine op a b m
      let swapped := combine op b a sum.2
      sum.2.Draws sum.1 (f.combine op g) ∧ swapped.2.Draws swapped.1 (g.combine op f) ∧
      (swapped.2.same sum.1 swapped.1 = true ↔ ¬ f.Clash g) := by
  obtain ⟨f, drawsA⟩ := ha.exists_figure
  obtain ⟨g, drawsB⟩ := hb.exists_figure
  have sum : m.Yields (combine op a b m) (f.combine op g) := combine_yields op drawsA drawsB
  have swapped := combine_yields op (drawsB.grow sum.keeps) (drawsA.grow sum.keeps)
  refine ⟨f, g, drawsA, drawsB, sum.draws, swapped.draws, ?_⟩
  rw [same_iff (sum.draws.grow swapped.keeps) swapped.draws]
  exact Figure.combine_comm_iff hop

/-- Lists of integers and points. -/
def figuresMemory : Memory where
  lists := #[#[.int 1, .point 0], #[.int 2, .point 1, .list 0]]
  points := #[⟨1, 2⟩, ⟨3, 4⟩]

theorem combine_commutes_lists :
    (ArithOp.add ≠ .sub ∧ figuresMemory.Drawable (.list 0) ∧ figuresMemory.Drawable (.list 1)) ∧
    ∃ f g, figuresMemory.Draws (.list 0) f ∧ figuresMemory.Draws (.list 1) g ∧
      let sum := combine .add (.list 0) (.list 1) figuresMemory
      let swapped := combine .add (.list 1) (.list 0) sum.2
      sum.2.Draws sum.1 (f.combine .add g) ∧ swapped.2.Draws swapped.1 (g.combine .add f) ∧
      (swapped.2.same sum.1 swapped.1 = true ↔ ¬ f.Clash g) :=
  have first : figuresMemory.Drawable (.list 0) := .ofOccurrences (by decide) (by decide)
  have second : figuresMemory.Drawable (.list 1) := .ofOccurrences (by decide) (by decide)
  ⟨⟨by decide, first, second⟩, combine_commutes (by decide) first second⟩

/-- A number added to a point is the number, and a point added to a number is a point. -/
theorem combine_order_matters :
    figuresMemory.Drawable (.int 5) ∧ figuresMemory.Drawable (.point 0) ∧
    (let sum := combine .add (.int 5) (.point 0) figuresMemory
     let swapped := combine .add (.point 0) (.int 5) sum.2
     sum.1 = .int 5 ∧ swapped.1 = .point 2 ∧ swapped.2.point 2 = ⟨6, 7⟩ ∧
      swapped.2.same sum.1 swapped.1 = false) ∧
    (let product := combine .mul (.int 5) (.point 0) figuresMemory
     let swapped := combine .mul (.point 0) (.int 5) product.2
     product.1 = .int 0 ∧ swapped.1 = .point 2 ∧ swapped.2.point 2 = ⟨5, 10⟩ ∧
      swapped.2.same product.1 swapped.1 = false) :=
  ⟨.ofOccurrences (by decide) (by decide), .ofOccurrences (by decide) (by decide), by decide,
    by decide⟩

/-! ## Negation -/

theorem negate_rect (cell : Nat) (m : Memory) : negate (.rect cell) m = (.int 0, m) :=
  congrArg (fun n => (Value.int n, m)) Int32.neg_zero

theorem negate_list (cell : Nat) (m : Memory) : negate (.list cell) m = (.int 0, m) :=
  congrArg (fun n => (Value.int n, m)) Int32.neg_zero

theorem negate_point_yields {cell : Nat} {p : Point} (held : m.points[cell]? = some p) :
    m.Yields (negate (.point cell) m) (.point ⟨-p.x, -p.y⟩) := by
  have same : m.point cell = p := by rw [Memory.point, held]; rfl
  rw [← same]
  exact newPoint_yields m _

/-- Multiplication by -1 turns every number of a value round. Negation has the same structure
for integers and points, and makes 0 of rects and lists. -/
theorem negate_matches (hv : m.Drawable v) :
    ∃ f, m.Draws v f ∧
      let negated := negate v m
      let product := combine .mul v (.int (-1)) negated.2
      product.2.Draws product.1 f.opposite ∧
      (product.2.same negated.1 product.1 = true ↔
        (∃ n, v = .int n) ∨ ∃ cell, v = .point cell) ∧
      ((∃ cell, v = .rect cell ∨ v = .list cell) → negated = (.int 0, m)) := by
  obtain ⟨f, draws⟩ := hv.exists_figure
  -- What negation makes is a figure as well, and the question is whether it is the opposite.
  obtain ⟨g, negated, turned⟩ : ∃ g, m.Yields (negate v m) g ∧
      (g = f.opposite ↔ (∃ n, v = .int n) ∨ ∃ cell, v = .point cell) := by
    cases draws with
    | int n => exact ⟨.int (-n), ⟨.refl m, .int (-n)⟩, by simp [Figure.opposite]⟩
    | point held => exact ⟨_, negate_point_yields held, by simp [Figure.opposite]⟩
    | rect held =>
      rw [negate_rect]
      exact ⟨_, ⟨.refl m, .int 0⟩, by simp [Figure.opposite]⟩
    | list held size items =>
      rw [negate_list]
      exact ⟨_, ⟨.refl m, .int 0⟩, by simp [Figure.opposite]⟩
  have product : (negate v m).2.Yields _ _ :=
    combine_yields .mul (draws.grow negated.keeps) (.int (-1))
  rw [Figure.combine_minus_one] at product
  refine ⟨f, draws, product.draws, ?_, ?_⟩
  · rw [same_iff (negated.draws.grow product.keeps) product.draws]
    exact turned
  · rintro ⟨cell, rfl | rfl⟩
    · exact negate_rect cell m
    · exact negate_list cell m

theorem negate_matches_lists :
    figuresMemory.Drawable (.list 1) ∧ ∃ f, figuresMemory.Draws (.list 1) f ∧
      let negated := negate (.list 1) figuresMemory
      let product := combine .mul (.list 1) (.int (-1)) negated.2
      product.2.Draws product.1 f.opposite ∧
      (product.2.same negated.1 product.1 = true ↔
        (∃ n, Value.list 1 = .int n) ∨ ∃ cell, Value.list 1 = .point cell) ∧
      ((∃ cell, Value.list 1 = .rect cell ∨ Value.list 1 = .list cell) →
        negated = (.int 0, figuresMemory)) :=
  have drawable : figuresMemory.Drawable (.list 1) := .ofOccurrences (by decide) (by decide)
  ⟨drawable, negate_matches drawable⟩

/-- The negation of a rect is 0, its product with -1 is a rect. -/
theorem negate_rect_misses :
    let m : Memory := { rects := #[⟨1, 2, 3, 4⟩] }
    let negated := negate (.rect 0) m
    let product := combine .mul (.rect 0) (.int (-1)) negated.2
    m.Drawable (.rect 0) ∧ negated.1 = .int 0 ∧ product.1 = .rect 1 ∧
      product.2.rect 1 = ⟨-1, -2, -3, -4⟩ ∧ product.2.same negated.1 product.1 = false :=
  ⟨.ofOccurrences (by decide) (by decide), by decide, by decide, by decide, by decide⟩

end Memory

end Lingo
