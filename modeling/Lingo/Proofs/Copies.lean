import Mathlib.Data.List.Forall2
import Lingo.Memory.Copy
import Lingo.Memory.Likeness
import Lingo.Proofs.Handles
import Lingo.Proofs.Nesting

/-!
# What a copy is

`Copied` relates values to their copies, from left to right: each point, rect, list,
argument list and property list is a new cell with the same or with copied contents,
each script object is the next object of the heap, and everything else is itself.

* `copyTo_made`: what `Memory.copyTo` makes of a value that is not too deep;
* `Copied.new`, `Copied.objects`, `Copied.same`: the cells of a copy are new, the heap
  has grown by the objects copied, and a copy without objects equals its original;
* `copy_detaches`: all of it for `Memory.copy`.
-/

namespace Lingo

variable {α : Type}

/-- Neither a cell nor a script object. -/
def Value.isPlain : Value → Bool
  | .point _ | .rect _ | .list _ | .propList _ | .argList _ | .argListNoRet _ | .object _ => false
  | _ => true

/-- The entries of the first array are the first ones of the second. -/
def StartOf (xs ys : Array α) : Prop :=
  ∀ (i : Nat) (x : α), xs[i]? = some x → ys[i]? = some x

namespace StartOf

variable {xs ys zs : Array α}

theorem refl (xs : Array α) : StartOf xs xs :=
  fun _ _ h => h

theorem trans (h : StartOf xs ys) (h' : StartOf ys zs) : StartOf xs zs :=
  fun i x hx => h' i x (h i x hx)

theorem push (xs : Array α) (x : α) : StartOf xs (xs.push x) := by
  intro i y hy
  have few := (Array.getElem?_eq_some_iff.mp hy).1
  rwa [Array.getElem?_push_lt few, ← Array.getElem?_eq_getElem few]

theorem size_le (h : StartOf xs ys) : xs.size ≤ ys.size := by
  by_contra more
  have last : ys.size < xs.size := Nat.lt_of_not_le more
  have := h ys.size xs[ys.size] (Array.getElem?_eq_getElem last)
  rw [Array.getElem?_eq_none (Nat.le_refl _)] at this
  cases this

theorem initial (h : StartOf xs ys) : xs.toList <+: ys.toList := by
  refine List.prefix_iff_getElem?.mpr fun i hi => ?_
  have := h i xs[i] (Array.getElem?_eq_getElem hi)
  simpa using this

end StartOf

namespace Memory

variable {m m₁ m₂ m' : Memory} {v d : Value} {i j k n : Nat}

/-- All cells and objects of the first memory are in the second, unchanged. -/
structure Keeps (m m' : Memory) : Prop where
  lists : StartOf m.lists m'.lists
  propLists : StartOf m.propLists m'.propLists
  points : StartOf m.points m'.points
  rects : StartOf m.rects m'.rects
  objects : StartOf m.heap.objects m'.heap.objects
  generation : m'.heap.generation = m.heap.generation

namespace Keeps

theorem refl (m : Memory) : m.Keeps m :=
  ⟨.refl _, .refl _, .refl _, .refl _, .refl _, rfl⟩

theorem trans (h : m.Keeps m₁) (h' : m₁.Keeps m₂) : m.Keeps m₂ :=
  ⟨h.lists.trans h'.lists, h.propLists.trans h'.propLists, h.points.trans h'.points,
    h.rects.trans h'.rects, h.objects.trans h'.objects, h'.generation.trans h.generation⟩

theorem get? (h : m.Keeps m') {id : ObjectId} {o : Object} (ho : m.heap.get? id = some o) :
    m'.heap.get? id = some o := by
  unfold Heap.get? at ho ⊢
  rw [h.generation]
  split at ho
  · rename_i same
    rw [if_pos same]
    exact h.objects _ _ ho
  · cases ho

end Keeps

/-! ## The relation -/

/-- The three kinds of values that are handles to list cells. -/
def Sequence (kind : Nat → Value) : Prop :=
  kind = .list ∨ kind = .argList ∨ kind = .argListNoRet

/-- In `m'`, the second values are copies of the first ones, which are values of `m`.
They are made from left to right, containers after their contents, while the heap
grows from `i` to `j` objects. -/
inductive Copied (m m' : Memory) : Nat → List Value → List Value → Nat → Prop
  | nil {i : Nat} : Copied m m' i [] [] i
  | plain {i j : Nat} {v : Value} {vs ws : List Value} (h : v.isPlain = true)
    (rest : Copied m m' i vs ws j) : Copied m m' i (v :: vs) (v :: ws) j
  | point {i j cell new : Nat} {p : Point} {vs ws : List Value}
    (old : m.points[cell]? = some p) (fresh : m.points.size ≤ new)
    (made : m'.points[new]? = some p) (rest : Copied m m' i vs ws j) :
    Copied m m' i (.point cell :: vs) (.point new :: ws) j
  | rect {i j cell new : Nat} {r : Rect} {vs ws : List Value}
    (old : m.rects[cell]? = some r) (fresh : m.rects.size ≤ new)
    (made : m'.rects[new]? = some r) (rest : Copied m m' i vs ws j) :
    Copied m m' i (.rect cell :: vs) (.rect new :: ws) j
  | sequence {i j k cell new : Nat} {kind : Nat → Value} {xs ys : Array Value}
    {vs ws : List Value} (hk : Sequence kind) (old : m.lists[cell]? = some xs)
    (items : Copied m m' i xs.toList ys.toList j) (fresh : m.lists.size ≤ new)
    (made : m'.lists[new]? = some ys) (rest : Copied m m' j vs ws k) :
    Copied m m' i (kind cell :: vs) (kind new :: ws) k
  | propList {i j k cell new : Nat} {b c : Bindings Value} {vs ws : List Value}
    (old : m.propLists[cell]? = some b) (keys : c.keys = b.keys)
    (values : Copied m m' i b.values c.values j) (fresh : m.propLists.size ≤ new)
    (made : m'.propLists[new]? = some c) (rest : Copied m m' j vs ws k) :
    Copied m m' i (.propList cell :: vs) (.propList new :: ws) k
  /-- An object among those there are by then. -/
  | live {i j : Nat} {id : ObjectId} {o : Object} {vs ws : List Value} (early : id.index < i)
    (old : m'.heap.get? id = some o) (made : m'.heap.get? ⟨m.heap.generation, i⟩ = some o)
    (rest : Copied m m' (i + 1) vs ws j) :
    Copied m m' i (.object id :: vs) (.object ⟨m.heap.generation, i⟩ :: ws) j
  | dead {i j : Nat} {id : ObjectId} {vs ws : List Value}
    (gone : id.generation = m.heap.generation → i ≤ id.index) (rest : Copied m m' i vs ws j) :
    Copied m m' i (.object id :: vs) (.object id :: ws) j

namespace Copied

variable {vs ws vs' ws' : List Value}

/-- A copy stays one when the memory grows. -/
theorem grow (h : Copied m m₁ i vs ws j) (keeps : m₁.Keeps m₂) : Copied m m₂ i vs ws j := by
  induction h with
  | nil => exact .nil
  | plain h _ rest => exact .plain h rest
  | point old fresh made _ rest => exact .point old fresh (keeps.points _ _ made) rest
  | rect old fresh made _ rest => exact .rect old fresh (keeps.rects _ _ made) rest
  | sequence hk old _ fresh made _ items rest =>
    exact .sequence hk old items fresh (keeps.lists _ _ made) rest
  | propList old keys _ fresh made _ values rest =>
    exact .propList old keys values fresh (keeps.propLists _ _ made) rest
  | live early old made _ rest => exact .live early (keeps.get? old) (keeps.get? made) rest
  | dead gone _ rest => exact .dead gone rest

theorem append (h : Copied m m' i vs ws j) (h' : Copied m m' j vs' ws' k) :
    Copied m m' i (vs ++ vs') (ws ++ ws') k := by
  induction h with
  | nil => exact h'
  | plain h _ rest => exact .plain h (rest h')
  | point old fresh made _ rest => exact .point old fresh made (rest h')
  | rect old fresh made _ rest => exact .rect old fresh made (rest h')
  | sequence hk old items fresh made _ _ rest =>
    exact .sequence hk old items fresh made (rest h')
  | propList old keys values fresh made _ _ rest =>
    exact .propList old keys values fresh made (rest h')
  | live early old made _ rest => exact .live early old made (rest h')
  | dead gone _ rest => exact .dead gone (rest h')

end Copied

/-! ## Making copies -/

/-- What is said of values and their copies in two memories, the second one grown out
of `m` by way of the first. -/
structure Made (m m₁ : Memory) (vs ws : List Value) (m₂ : Memory) : Prop where
  keeps : m₁.Keeps m₂
  copied : Copied m m₂ m₁.heap.objects.size vs ws m₂.heap.objects.size

namespace Made

variable {vs ws vs' ws' : List Value}

theorem append (h : Made m m₁ vs ws m₂) {m₃ : Memory} (h' : Made m m₂ vs' ws' m₃) :
    Made m m₁ (vs ++ vs') (ws ++ ws') m₃ :=
  ⟨h.keeps.trans h'.keeps, (h.copied.grow h'.keeps).append h'.copied⟩

end Made

theorem list_eq {cell : Nat} {xs : Array Value} (h : m.lists[cell]? = some xs) :
    m.list cell = xs := by
  rw [list, h]
  rfl

theorem props_eq {cell : Nat} {b : Bindings Value} (h : m.propLists[cell]? = some b) :
    m.props cell = b := by
  rw [props, h]
  rfl

theorem mapM_made {f : Value → Alloc Value} {vs : List Value}
    (each : ∀ v ∈ vs, ∀ m₁ : Memory, m.Keeps m₁ → Made m m₁ [v] [(f v m₁).1] (f v m₁).2)
    (keeps : m.Keeps m₁) :
    Made m m₁ vs (vs.mapM f m₁).1 (vs.mapM f m₁).2 := by
  induction vs generalizing m₁ with
  | nil => exact ⟨.refl _, .nil⟩
  | cons v vs ih =>
    rw [List.mapM_cons]
    have first := each v List.mem_cons_self m₁ keeps
    have rest := ih (fun w hw => each w (List.mem_cons_of_mem v hw)) (keeps.trans first.keeps)
    exact first.append rest

theorem mapM_entries {f : Value → Alloc Value} (es : List (String × Value)) (m : Memory) :
    let made := (es.mapM fun (key, v) => return (key, ← f v) : Alloc _) m
    made.1.map (·.1) = es.map (·.1) ∧
      (es.map (·.2)).mapM f m = (made.1.map (·.2), made.2) := by
  induction es generalizing m with
  | nil => exact ⟨rfl, rfl⟩
  | cons e es ih =>
    obtain ⟨keys, values⟩ := ih (f e.2 m).2
    rw [List.mapM_cons, List.map_cons, List.map_cons, List.mapM_cons]
    refine ⟨congrArg (e.1 :: ·) keys, ?_⟩
    change (let rest := (es.map (·.2)).mapM f (f e.2 m).2; ((f e.2 m).1 :: rest.1, rest.2)) = _
    rw [values]
    rfl

theorem copyTo_sequence {kind : Nat → Value} (hk : Sequence kind) (n cell : Nat) (m : Memory) :
    ∃ ys : Array Value, ∃ m' : Memory,
      (m.list cell).toList.mapM (copyTo n) m = (ys.toList, m') ∧
      copyTo (n + 1) (kind cell) m =
        (kind m'.lists.size, { m' with lists := m'.lists.push ys }) := by
  have items : Array.toList <$> (m.list cell).mapM (copyTo n) =
      (m.list cell).toList.mapM (copyTo n) := Array.toList_mapM
  refine ⟨((m.list cell).mapM (copyTo n) m).1, ((m.list cell).mapM (copyTo n) m).2,
    (congrFun items m).symm, ?_⟩
  rcases hk with rfl | rfl | rfl <;> rfl

theorem copyTo_propList (n cell : Nat) (m : Memory) :
    ∃ c : Bindings Value, ∃ m' : Memory, c.keys = (m.props cell).keys ∧
      (m.props cell).values.mapM (copyTo n) m = (c.values, m') ∧
      copyTo (n + 1) (.propList cell) m =
        (.propList m'.propLists.size, { m' with propLists := m'.propLists.push c }) := by
  obtain ⟨keys, values⟩ := mapM_entries (f := copyTo n) (m.props cell).entries m
  exact ⟨⟨_⟩, _, keys, values, rfl⟩

theorem keeps_pushList (m : Memory) (xs : Array Value) :
    m.Keeps { m with lists := m.lists.push xs } :=
  { Keeps.refl m with lists := .push _ _ }

theorem keeps_pushProps (m : Memory) (b : Bindings Value) :
    m.Keeps { m with propLists := m.propLists.push b } :=
  { Keeps.refl m with propLists := .push _ _ }

theorem sequence_parts {kind : Nat → Value} (hk : Sequence kind) {cell : Nat} {xs : Array Value}
    (h : m.lists[cell]? = some xs) : m.parts (kind cell) = xs.toList := by
  rw [← list_eq h]
  rcases hk with rfl | rfl | rfl <;> rfl

theorem propList_parts {cell : Nat} {b : Bindings Value} (h : m.propLists[cell]? = some b) :
    m.parts (.propList cell) = b.values := by
  rw [← props_eq h]
  rfl

theorem sequence_placed {kind : Nat → Value} (hk : Sequence kind) {cell : Nat}
    (h : m.Placed (kind cell)) : cell < m.lists.size := by
  rcases hk with rfl | rfl | rfl <;> exact h

theorem made_sequence {kind : Nat → Value} (hk : Sequence kind) {cell : Nat} (keeps : m.Keeps m₁)
    (placed : m.Placed (kind cell))
    (parts : Made m m₁ (m.parts (kind cell)) ((m.parts (kind cell)).mapM (copyTo n) m₁).1
      ((m.parts (kind cell)).mapM (copyTo n) m₁).2) :
    Made m m₁ [kind cell] [(copyTo (n + 1) (kind cell) m₁).1]
      (copyTo (n + 1) (kind cell) m₁).2 := by
  have old := Array.getElem?_eq_getElem (sequence_placed hk placed)
  obtain ⟨ys, m', items, run⟩ := copyTo_sequence hk n cell m₁
  rw [list_eq (keeps.lists _ _ old)] at items
  rw [sequence_parts hk old, items] at parts
  rw [run]
  have push := keeps_pushList m' ys
  exact ⟨parts.keeps.trans push, .sequence hk old (parts.copied.grow push)
    (keeps.trans parts.keeps).lists.size_le Array.getElem?_push_size .nil⟩

theorem made_propList {cell : Nat} (keeps : m.Keeps m₁) (placed : m.Placed (.propList cell))
    (parts : Made m m₁ (m.parts (.propList cell)) ((m.parts (.propList cell)).mapM (copyTo n) m₁).1
      ((m.parts (.propList cell)).mapM (copyTo n) m₁).2) :
    Made m m₁ [.propList cell] [(copyTo (n + 1) (.propList cell) m₁).1]
      (copyTo (n + 1) (.propList cell) m₁).2 := by
  have old := Array.getElem?_eq_getElem placed.1
  obtain ⟨c, m', keys, values, run⟩ := copyTo_propList n cell m₁
  rw [props_eq (keeps.propLists _ _ old)] at keys values
  rw [propList_parts old, values] at parts
  rw [run]
  have push := keeps_pushProps m' c
  exact ⟨parts.keeps.trans push, .propList old keys (parts.copied.grow push)
    (keeps.trans parts.keeps).propLists.size_le Array.getElem?_push_size .nil⟩

theorem made_point {cell : Nat} (keeps : m.Keeps m₁) (placed : m.Placed (.point cell)) :
    Made m m₁ [.point cell] [.point m₁.points.size]
      { m₁ with points := m₁.points.push (m₁.point cell) } := by
  have old := Array.getElem?_eq_getElem placed
  have same : m₁.point cell = m.points[cell] := by rw [Memory.point, keeps.points _ _ old]; rfl
  rw [same]
  exact ⟨{ Keeps.refl m₁ with points := .push _ _ },
    .point old keeps.points.size_le Array.getElem?_push_size .nil⟩

theorem made_rect {cell : Nat} (keeps : m.Keeps m₁) (placed : m.Placed (.rect cell)) :
    Made m m₁ [.rect cell] [.rect m₁.rects.size]
      { m₁ with rects := m₁.rects.push (m₁.rect cell) } := by
  have old := Array.getElem?_eq_getElem placed
  have same : m₁.rect cell = m.rects[cell] := by rw [Memory.rect, keeps.rects _ _ old]; rfl
  rw [same]
  exact ⟨{ Keeps.refl m₁ with rects := .push _ _ },
    .rect old keeps.rects.size_le Array.getElem?_push_size .nil⟩

/-- A handle that addresses no object is its own copy. -/
theorem copyTo_dead (n : Nat) {id : ObjectId} (h : m.heap.get? id = none) :
    copyTo (n + 1) (.object id) m = (.object id, m) := by
  simp only [copyTo, Alloc.cloneObject?, modifyGet, MonadStateOf.modifyGet, StateT.modifyGet,
    bind, StateT.bind, Heap.clone?, h, Option.map_none]
  rfl

theorem copyTo_live (n : Nat) {id : ObjectId} {o : Object} (h : m.heap.get? id = some o) :
    copyTo (n + 1) (.object id) m =
      (.object (m.heap.alloc o).1, { m with heap := (m.heap.alloc o).2 }) := by
  simp only [copyTo, Alloc.cloneObject?, modifyGet, MonadStateOf.modifyGet, StateT.modifyGet,
    bind, StateT.bind, Heap.clone?, h, Option.map_some]
  rfl

theorem made_object (n : Nat) (id : ObjectId) (keeps : m.Keeps m₁) :
    Made m m₁ [.object id] [(copyTo (n + 1) (.object id) m₁).1]
      (copyTo (n + 1) (.object id) m₁).2 := by
  cases ho : m₁.heap.get? id with
  | none =>
    rw [copyTo_dead n ho]
    refine ⟨.refl m₁, .dead (fun same => ?_) .nil⟩
    by_contra early
    have live := Heap.get?_isSome_iff.mpr ⟨same.trans keeps.generation.symm, Nat.lt_of_not_le early⟩
    rw [ho] at live
    cases live
  | some o =>
    rw [copyTo_live n ho]
    have push : m₁.Keeps { m₁ with heap := (m₁.heap.alloc o).2 } :=
      { Keeps.refl m₁ with objects := .push _ _ }
    have early := (Heap.get?_isSome_iff.mp (Option.isSome_of_eq_some ho)).2
    have made : (m₁.heap.alloc o).2.get? ⟨m.heap.generation, m₁.heap.objects.size⟩ = some o := by
      simp [Heap.get?, Heap.alloc, keeps.generation]
    have copied := Copied.live early (push.get? ho) made .nil
    rw [← keeps.generation] at copied
    refine ⟨push, ?_⟩
    have size : (m₁.heap.alloc o).2.objects.size = m₁.heap.objects.size + 1 := Array.size_push ..
    rw [← size] at copied
    exact copied

/-- Copying goes deep enough, and makes what it should. -/
theorem copyTo_made (keeps : m.Keeps m₁) (nested : m.Nested n v) (whole : m.Whole v) :
    Made m m₁ [v] [(copyTo n v m₁).1] (copyTo n v m₁).2 := by
  induction n generalizing v m₁ with
  | zero => exact nested.elim
  | succ n ih =>
    have placed := whole v .refl
    have parts := mapM_made (fun w hw m₁ keeps => ih keeps (nested w hw) (whole.part hw)) keeps
    cases v with
    | point cell => exact made_point keeps placed
    | rect cell => exact made_rect keeps placed
    | list cell => exact made_sequence (.inl rfl) keeps placed parts
    | argList cell => exact made_sequence (.inr (.inl rfl)) keeps placed parts
    | argListNoRet cell => exact made_sequence (.inr (.inr rfl)) keeps placed parts
    | propList cell => exact made_propList keeps placed parts
    | object id => exact made_object n id keeps
    | _ => exact ⟨.refl _, .plain rfl .nil⟩

/-! ## New cells -/

/-- Not a cell of the memory. -/
def New (m : Memory) : Value → Prop
  | .point cell => m.points.size ≤ cell
  | .rect cell => m.rects.size ≤ cell
  | .list cell | .argList cell | .argListNoRet cell => m.lists.size ≤ cell
  | .propList cell => m.propLists.size ≤ cell
  | _ => True

theorem sequence_new {kind : Nat → Value} (hk : Sequence kind) {cell : Nat}
    (h : m.lists.size ≤ cell) : m.New (kind cell) := by
  rcases hk with rfl | rfl | rfl <;> exact h

theorem plain_parts (m : Memory) (h : v.isPlain = true) : m.parts v = [] := by
  cases v <;> first | rfl | cases h

theorem plain_new (m : Memory) (h : v.isPlain = true) : m.New v := by
  cases v <;> first | exact True.intro | cases h

theorem new_of_parts {w : Value} (new : m.New w)
    (within : ∀ x ∈ m'.parts w, ∀ u, m'.Reaches x u → m.New u) (u : Value)
    (reaches : m'.Reaches w u) : m.New u := by
  rcases reaches_iff.mp reaches with rfl | ⟨x, hx, reaches⟩
  · exact new
  · exact within x hx u reaches

/-- All cells that copies lead to are new. -/
theorem Copied.new {vs ws : List Value} (h : Copied m m' i vs ws j) :
    ∀ w ∈ ws, ∀ u, m'.Reaches w u → m.New u := by
  induction h with
  | nil => exact fun _ hw => nomatch hw
  | plain h _ rest =>
    refine List.forall_mem_cons.mpr ⟨new_of_parts (plain_new m h) ?_, rest⟩
    rw [plain_parts m' h]
    exact fun _ hx => nomatch hx
  | point _ fresh _ _ rest | rect _ fresh _ _ rest =>
    exact List.forall_mem_cons.mpr ⟨new_of_parts fresh fun _ hx => (nomatch hx), rest⟩
  | sequence hk _ _ fresh made _ items rest =>
    refine List.forall_mem_cons.mpr ⟨new_of_parts (sequence_new hk fresh) ?_, rest⟩
    rw [sequence_parts hk made]
    exact items
  | propList _ _ _ fresh made _ values rest =>
    refine List.forall_mem_cons.mpr ⟨new_of_parts fresh ?_, rest⟩
    rw [propList_parts made]
    exact values
  | live _ _ _ _ rest | dead _ _ rest =>
    exact List.forall_mem_cons.mpr ⟨new_of_parts True.intro fun _ hx => (nomatch hx), rest⟩

/-! ## New objects -/

/-- The script object that a value is a handle to. -/
def object? (m : Memory) : Value → Option Object
  | .object id => m.heap.get? id
  | _ => none

/-- The script objects that occur in values down to a depth of `n`. -/
def objectsIn (m : Memory) (n : Nat) (vs : List Value) : List Object :=
  (vs.flatMap (m.occurrencesTo n)).filterMap m.object?

theorem objectsIn_cons (m : Memory) (n : Nat) (v : Value) (vs : List Value) :
    m.objectsIn (n + 1) (v :: vs) =
      (m.object? v).toList ++ m.objectsIn n (m.parts v) ++ m.objectsIn (n + 1) vs := by
  rw [objectsIn, List.flatMap_cons, List.filterMap_append, occurrencesTo]
  cases ho : m.object? v with
  | none => rw [List.filterMap_cons_none ho]; rfl
  | some o => rw [List.filterMap_cons_some ho]; rfl

theorem objectsIn_leaf {vs : List Value} (ho : m.object? v = none) (hp : m.parts v = []) :
    m.objectsIn (n + 1) (v :: vs) = m.objectsIn (n + 1) vs := by
  rw [objectsIn_cons, ho, hp]
  rfl

theorem objectsIn_container {vs xs : List Value} (ho : m.object? v = none) (hp : m.parts v = xs) :
    m.objectsIn (n + 1) (v :: vs) = m.objectsIn n xs ++ m.objectsIn (n + 1) vs := by
  rw [objectsIn_cons, ho, hp]
  rfl

theorem plain_object? (m : Memory) (h : v.isPlain = true) : m.object? v = none := by
  cases v <;> first | rfl | cases h

theorem sequence_object? {kind : Nat → Value} (hk : Sequence kind) (m : Memory) (cell : Nat) :
    m.object? (kind cell) = none := by
  rcases hk with rfl | rfl | rfl <;> rfl

/-- A handle of the heap's generation is one to an object that there is. -/
def Given (m : Memory) : Value → Prop
  | .object id => id.generation = m.heap.generation → id.index < m.heap.objects.size
  | _ => True

instance (m : Memory) : ∀ v, Decidable (m.Given v)
  | .object id => inferInstanceAs (Decidable (id.generation = _ → id.index < _))
  | .void | .int _ | .float _ | .text _ | .symbol _ | .sprite _ | .member _ _ | .castLib _
  | .script _ | .window _ | .stage | .movie | .player | .xtra _ | .timeout _ | .varRef _ _
  | .chunkRef _ | .color _ | .point _ | .rect _ | .list _ | .propList _ | .argList _
  | .argListNoRet _ => inferInstanceAs (Decidable True)

/-- All handles in the value are ones that the heap has given out, so that no object
to come is one that they address. -/
def Issued (m : Memory) (v : Value) : Prop :=
  ∀ w, m.Reaches v w → m.Given w

theorem Issued.part (h : m.Issued v) {w : Value} (hw : m.Holds v w) : m.Issued w :=
  fun u reaches => h u (.head hw reaches)

/-- An object that there was before is still the same. -/
theorem get?_of_early (keeps : m.Keeps m') {id : ObjectId} {o : Object}
    (old : m'.heap.get? id = some o)
    (early : id.generation = m.heap.generation → id.index < m.heap.objects.size) :
    m.heap.get? id = some o := by
  have generation := (Heap.get?_isSome_iff.mp (Option.isSome_of_eq_some old)).1
  have same := generation.trans keeps.generation
  obtain ⟨o', ho'⟩ := Option.isSome_iff_exists.mp (Heap.get?_isSome_iff.mpr ⟨same, early same⟩)
  rw [ho', ← old, keeps.get? ho']

theorem get?_eq_none_of_late {id : ObjectId} (low : m.heap.objects.size ≤ i)
    (gone : id.generation = m.heap.generation → i ≤ id.index) : m.heap.get? id = none := by
  rw [← Option.not_isSome_iff_eq_none, Heap.get?_isSome_iff]
  rintro ⟨same, early⟩
  exact absurd (Nat.le_trans low (gone same)) (Nat.not_le.mpr early)

theorem drop_of_get? {heap : Heap} {o : Object} {generation : UInt32}
    (h : heap.get? ⟨generation, i⟩ = some o) :
    heap.objects.toList.drop i = o :: heap.objects.toList.drop (i + 1) := by
  unfold Heap.get? at h
  split at h
  · obtain ⟨few, rfl⟩ := Array.getElem?_eq_some_iff.mp h
    exact List.drop_eq_getElem_cons few
  · cases h

/-- The objects from `i` on are those that occur in the values, one for each
occurrence. -/
theorem Copied.objects {vs ws : List Value} (h : Copied m m' i vs ws j) (keeps : m.Keeps m')
    (low : m.heap.objects.size ≤ i) (nested : ∀ v ∈ vs, m.Nested n v)
    (issued : ∀ v ∈ vs, m.Issued v) :
    i ≤ j ∧ m'.heap.objects.toList.drop i =
      m.objectsIn n vs ++ m'.heap.objects.toList.drop j := by
  induction h generalizing n with
  | nil => exact ⟨Nat.le_refl _, rfl⟩
  | @plain i j v vs ws h _ rest =>
    obtain ⟨n, rfl, -, nested⟩ := nested_cons nested
    rw [objectsIn_leaf (plain_object? m h) (plain_parts m h)]
    exact rest low nested (List.forall_mem_cons.mp issued).2
  | point _ _ _ _ rest | rect _ _ _ _ rest =>
    obtain ⟨n, rfl, -, nested⟩ := nested_cons nested
    rw [objectsIn_leaf rfl rfl]
    exact rest low nested (List.forall_mem_cons.mp issued).2
  | sequence hk old _ _ _ _ items rest =>
    obtain ⟨n, rfl, head, nested⟩ := nested_cons nested
    obtain ⟨first, issued⟩ := List.forall_mem_cons.mp issued
    have parts := sequence_parts hk old
    obtain ⟨le, made⟩ := items low (fun w hw => head w (parts ▸ hw))
      (fun w hw => first.part (parts ▸ hw : w ∈ m.parts _))
    obtain ⟨le', made'⟩ := rest (Nat.le_trans low le) nested issued
    refine ⟨Nat.le_trans le le', ?_⟩
    rw [objectsIn_container (sequence_object? hk m _) parts, made, made', List.append_assoc]
  | propList old _ _ _ _ _ values rest =>
    obtain ⟨n, rfl, head, nested⟩ := nested_cons nested
    obtain ⟨first, issued⟩ := List.forall_mem_cons.mp issued
    have parts := propList_parts old
    obtain ⟨le, made⟩ := values low (fun w hw => head w (parts ▸ hw))
      (fun w hw => first.part (parts ▸ hw : w ∈ m.parts _))
    obtain ⟨le', made'⟩ := rest (Nat.le_trans low le) nested issued
    refine ⟨Nat.le_trans le le', ?_⟩
    rw [objectsIn_container rfl parts, made, made', List.append_assoc]
  | @live i j id o vs ws _ old made _ rest =>
    obtain ⟨n, rfl, -, nested⟩ := nested_cons nested
    obtain ⟨first, issued⟩ := List.forall_mem_cons.mp issued
    obtain ⟨le, later⟩ := rest (Nat.le_succ_of_le low) nested issued
    have object : m.object? (.object id) = some o := get?_of_early keeps old (first _ .refl)
    refine ⟨Nat.le_of_succ_le le, ?_⟩
    rw [drop_of_get? made, later, objectsIn_cons, object]
    rfl
  | dead gone _ rest =>
    obtain ⟨n, rfl, -, nested⟩ := nested_cons nested
    have none : m.object? (.object _) = none := get?_eq_none_of_late low gone
    rw [objectsIn_leaf none rfl]
    exact rest low nested (List.forall_mem_cons.mp issued).2

/-! ## Copies without objects -/

theorem Copied.le {vs ws : List Value} (h : Copied m m' i vs ws j) : i ≤ j := by
  induction h with
  | nil => exact Nat.le_refl _
  | plain _ _ rest | point _ _ _ _ rest | rect _ _ _ _ rest | dead _ _ rest => exact rest
  | sequence _ _ _ _ _ _ items rest => exact Nat.le_trans items rest
  | propList _ _ _ _ _ _ values rest => exact Nat.le_trans values rest
  | live _ _ _ _ rest => exact Nat.le_of_succ_le rest

/-- Without objects among the values, the heap stays as it is. -/
theorem Copied.quiet {vs ws : List Value} (h : Copied m m' i vs ws j) (keeps : m.Keeps m')
    (start : i = m.heap.objects.size)
    (dead : ∀ v ∈ vs, ∀ id, m.Reaches v (.object id) → m.heap.get? id = none) : j = i := by
  induction h with
  | nil => rfl
  | plain _ _ rest | point _ _ _ _ rest | rect _ _ _ _ rest | dead _ _ rest =>
    exact rest start (List.forall_mem_cons.mp dead).2
  | sequence hk old _ _ _ _ items rest =>
    obtain ⟨first, dead⟩ := List.forall_mem_cons.mp dead
    have parts := sequence_parts hk old
    obtain rfl := items start fun w hw id reaches =>
      first id (.head (parts ▸ hw : w ∈ m.parts _) reaches)
    exact rest start dead
  | propList old _ _ _ _ _ values rest =>
    obtain ⟨first, dead⟩ := List.forall_mem_cons.mp dead
    have parts := propList_parts old
    obtain rfl := values start fun w hw id reaches =>
      first id (.head (parts ▸ hw : w ∈ m.parts _) reaches)
    exact rest start dead
  | live early old _ _ _ =>
    have live := get?_of_early keeps old fun _ => start ▸ early
    rw [(List.forall_mem_cons.mp dead).1 _ .refl] at live
    cases live

theorem sameElements_of_forall₂ {same : Value → Value → Bool} {xs ys : Array Value}
    (h : List.Forall₂ (fun x y => same x y = true) xs.toList ys.toList) :
    sameElements same xs ys = true := by
  obtain ⟨length, each⟩ := List.forall₂_iff_zip.mp h
  rw [sameElements, Bool.and_eq_true, List.all_eq_true]
  exact ⟨beq_iff_eq.mpr length, fun ⟨x, y⟩ hxy => each hxy⟩

/-- Entries with the same names, none of them twice, and with related values. -/
theorem lookup_of_forall₂ {R : Value → Value → Prop} {es fs : List (String × Value)}
    (keys : es.map (·.1) = fs.map (·.1)) (values : List.Forall₂ R (es.map (·.2)) (fs.map (·.2)))
    (nodup : (fs.map (·.1)).Nodup) : ∀ e ∈ es, ∃ y, fs.lookup e.1 = some y ∧ R e.2 y := by
  induction es generalizing fs with
  | nil => exact fun _ he => nomatch he
  | cons e es ih =>
    cases fs with
    | nil => cases keys
    | cons f fs =>
      obtain ⟨key, keys⟩ := List.cons.inj keys
      cases values with
      | cons value values =>
        obtain ⟨absent, nodup⟩ := List.nodup_cons.mp nodup
        refine List.forall_mem_cons.mpr ⟨⟨f.2, ?_, value⟩, fun e' he => ?_⟩
        · rw [List.lookup_cons, beq_iff_eq.mpr key]
        · obtain ⟨y, found, related⟩ := ih keys values nodup e' he
          refine ⟨y, ?_, related⟩
          have other : ¬ (e'.1 == f.1) = true := by
            intro same
            have among := List.mem_map_of_mem (f := (·.1)) he
            rw [keys, eq_of_beq same] at among
            exact absent among
          rw [List.lookup_cons, Bool.eq_false_of_not_eq_true other]
          exact found

theorem sameEntries_of_forall₂ {same : Value → Value → Bool} {b c : Bindings Value}
    (keys : c.keys = b.keys) (nodup : b.keys.Nodup)
    (values : List.Forall₂ (fun x y => same x y = true) c.values b.values) :
    sameEntries same c b = true := by
  rw [sameEntries, Bool.and_eq_true, List.all_eq_true]
  refine ⟨beq_iff_eq.mpr ?_, fun e he => ?_⟩
  · simpa [Bindings.keys, Bindings.size] using congrArg List.length keys
  · obtain ⟨y, found, related⟩ := lookup_of_forall₂ keys values nodup e he
    change (b.entries.lookup e.1).any _ = true
    rw [found]
    exact related

theorem sameTo_self (m : Memory) (n : Nat) (v : Value) : m.sameTo (n + 1) v v = true := by
  unfold sameTo
  rw [beq_self_eq_true, Bool.true_or]

/-- Copies that made no object equal their originals. -/
theorem Copied.same {vs ws : List Value} (h : Copied m m' i vs ws j) (none : j ≤ i)
    (keeps : m.Keeps m') (nested : ∀ v ∈ vs, m.Nested n v) (whole : ∀ v ∈ vs, m.Whole v) :
    List.Forall₂ (fun w v => m'.sameTo n w v = true) ws vs := by
  induction h generalizing n with
  | nil => exact .nil
  | plain _ _ rest | dead _ _ rest =>
    obtain ⟨n, rfl, -, nested⟩ := nested_cons nested
    exact .cons (sameTo_self m' n _) (rest none nested (List.forall_mem_cons.mp whole).2)
  | point old _ made _ rest =>
    obtain ⟨n, rfl, -, nested⟩ := nested_cons nested
    refine .cons ?_ (rest none nested (List.forall_mem_cons.mp whole).2)
    simp [sameTo, Memory.point, made, keeps.points _ _ old]
  | rect old _ made _ rest =>
    obtain ⟨n, rfl, -, nested⟩ := nested_cons nested
    refine .cons ?_ (rest none nested (List.forall_mem_cons.mp whole).2)
    simp [sameTo, Memory.rect, made, keeps.rects _ _ old]
  | sequence hk old items _ made later same rest =>
    obtain ⟨n, rfl, head, nested⟩ := nested_cons nested
    obtain ⟨first, whole⟩ := List.forall_mem_cons.mp whole
    have parts := sequence_parts hk old
    have elements := same (Nat.le_trans later.le none) (fun w hw => head w (parts ▸ hw))
      (fun w hw => first.part (parts ▸ hw : w ∈ m.parts _))
    refine .cons ?_ (rest (Nat.le_trans none items.le) nested whole)
    have elements := sameElements_of_forall₂ elements
    rw [← list_eq made, ← list_eq (keeps.lists _ _ old)] at elements
    rcases hk with rfl | rfl | rfl <;> simp [sameTo, elements]
  | propList old keys values _ made later same rest =>
    obtain ⟨n, rfl, head, nested⟩ := nested_cons nested
    obtain ⟨first, whole⟩ := List.forall_mem_cons.mp whole
    have parts := propList_parts old
    have entries := same (Nat.le_trans later.le none) (fun w hw => head w (parts ▸ hw))
      (fun w hw => first.part (parts ▸ hw : w ∈ m.parts _))
    refine .cons ?_ (rest (Nat.le_trans none values.le) nested whole)
    have nodup := (first _ .refl).2
    rw [props_eq old] at nodup
    have entries := sameEntries_of_forall₂ keys nodup entries
    rw [← props_eq made, ← props_eq (keeps.propLists _ _ old)] at entries
    simp [sameTo, entries]
  | live _ _ _ later => exact absurd (Nat.le_trans later.le none) (Nat.not_succ_le_self _)

/-! ## All of it -/

/-- Copying a value, with the containers in it and without a container that leads back
to itself, changes no cell and no object that there was. It makes a value of the same
shape whose cells are all new, with a new object for each occurrence of a script
object; the ancestors of that object do not matter. The heap grows by those objects,
one for each occurrence. Where there is none, the copy equals the original. -/
theorem copy_detaches {m : Memory} {d : Value} (acyclic : m.Acyclic d) (whole : m.Whole d) :
    let d' := (copy d m).1
    let m' := (copy d m).2
    m.Keeps m' ∧
    Copied m m' m.heap.objects.size [d] [d'] m'.heap.objects.size ∧
    (∀ w, m'.Reaches d' w → m.New w) ∧
    (m.Issued d → m'.heap.objects.toList =
      m.heap.objects.toList ++ (m.occurrences d).filterMap m.object?) ∧
    ((∀ id, m.Reaches d (.object id) → m.heap.get? id = none) → m'.same d' d = true) := by
  intro d' m'
  have nested := nested_of_acyclic acyclic
  obtain ⟨keeps, copied⟩ : Made m m [d] [d'] m' := copyTo_made (.refl m) nested whole
  have nested : ∀ v ∈ [d], m.Nested m.levels v := fun v hv => List.mem_singleton.mp hv ▸ nested
  refine ⟨keeps, copied, copied.new d' List.mem_cons_self, fun issued => ?_, fun dead => ?_⟩
  · have issued : ∀ v ∈ [d], m.Issued v := fun v hv => List.mem_singleton.mp hv ▸ issued
    obtain ⟨-, added⟩ := copied.objects keeps (Nat.le_refl _) nested issued
    obtain ⟨rest, split⟩ := keeps.objects.initial
    rw [← split, ← Array.length_toList, List.drop_left, ← Array.length_toList,
      ← split, List.drop_length, List.append_nil] at added
    rw [← split, added, objectsIn, List.flatMap_singleton]
    rfl
  · have quiet := copied.quiet keeps rfl fun v hv => List.mem_singleton.mp hv ▸ dead
    have deeper : m.levels ≤ m'.levels :=
      Nat.succ_le_succ (Nat.add_le_add keeps.lists.size_le keeps.propLists.size_le)
    have same := copied.same (Nat.le_of_eq quiet) keeps
      (fun v hv => (nested v hv).mono deeper) fun v hv => List.mem_singleton.mp hv ▸ whole
    exact (List.forall₂_cons.mp same).1

/-- A list that holds a list twice, and once more by way of a property list. The list
held holds one of two objects that are each other's ancestors; another one holds a
handle that addresses no object. -/
def sharedMemory : Memory where
  lists := #[#[.list 1, .propList 0, .list 1, .point 0, .object ⟨0, 7⟩],
    #[.object ⟨1, 0⟩, .int 7], #[.point 0, .object ⟨0, 7⟩]]
  propLists := #[⟨[("one", .argList 1), ("two", .text "two")]⟩]
  points := #[⟨3, 4⟩]
  heap :=
    { generation := 1
      objects := #[{ properties := ⟨[(ancestorName, .object ⟨1, 1⟩)]⟩ },
        { properties := ⟨[(ancestorName, .object ⟨1, 0⟩)]⟩ }] }

theorem copy_detaches_shared :
    (sharedMemory.Acyclic (.list 0) ∧ sharedMemory.Whole (.list 0) ∧
      sharedMemory.Issued (.list 0) ∧
      let m' := (copy (.list 0) sharedMemory).2
      sharedMemory.Keeps m' ∧ m'.heap.objects.toList.length = 2 + 3) ∧
    (sharedMemory.Acyclic (.list 2) ∧ sharedMemory.Whole (.list 2) ∧
      let made := copy (.list 2) sharedMemory
      made.2.same made.1 (.list 2) = true) := by
  have acyclic : sharedMemory.Acyclic (.list 0) := by decide
  have whole := (whole_iff acyclic).mpr (by decide)
  have given : ∀ w ∈ sharedMemory.occurrences (.list 0), sharedMemory.Given w := by decide
  have issued : sharedMemory.Issued (.list 0) :=
    fun w reaches => given w ((mem_occurrences acyclic).mpr reaches)
  obtain ⟨keeps, -, -, grown, -⟩ := copy_detaches acyclic whole
  have quiet : sharedMemory.Acyclic (.list 2) := by decide
  have there := (whole_iff quiet).mpr (by decide)
  have none : ∀ w ∈ sharedMemory.occurrences (.list 2), sharedMemory.object? w = none := by
    decide
  refine ⟨⟨acyclic, whole, issued, keeps, ?_⟩, quiet, there, ?_⟩
  · rw [grown issued]
    decide
  · exact (copy_detaches quiet there).2.2.2.2 fun id reaches =>
      none (.object id) ((mem_occurrences quiet).mpr reaches)

end Memory

end Lingo
