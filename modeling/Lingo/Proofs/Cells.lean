import Lingo.Memory.Display
import Lingo.Proofs.Nesting

/-!
# Texts after writes to cells

The text of a value is made of what is in the cells that the value leads to. Neither a
write to another cell nor a cell made anew changes it.

* `textWhile?_eq_none`: which values have no text while a property list is written;
* `text_congr`: the text of a value in two memories that have the same in its cells;
* `Apart.text_modifyList`, `Apart.text_modifyProps`, `Apart.textWhile?_pushProps`: the text
  of a value after such a change.
-/

namespace Lingo.Memory

variable {m m' : Memory} {v w : Value} {n k cell : Nat}

/-- The value is, or has in it, a container with the cell of another one. -/
def Contains (m : Memory) (v container : Value) : Prop :=
  ∃ w cell, m.Reaches v w ∧ w.cell? = some cell ∧ container.cell? = some cell

/-- The value has a text, as all its cells are there and no container in it leads back
to itself, and this text does not depend on what is in another container. -/
structure Apart (m : Memory) (v container : Value) : Prop where
  acyclic : m.Acyclic v
  whole : m.Whole v
  apart : ¬ m.Contains v container

/-- A value that is no container leads to nothing but itself. -/
theorem Apart.of_cell? (h : v.cell? = none) (placed : m.Placed v) (container : Value) :
    m.Apart v container := by
  have empty : m.parts v = [] := by rw [parts_eq, h, Option.elim_none]
  have only {w : Value} (hw : m.Reaches v w) : w = v := by
    rcases reaches_iff.mp hw with rfl | ⟨u, hu, -⟩
    · rfl
    · rw [empty] at hu
      cases hu
  refine ⟨acyclic_of_nested (n := 1) fun w hw => ?_, fun w hw => ?_, ?_⟩
  · rw [empty] at hw
    cases hw
  · rw [only hw]
    exact placed
  · rintro ⟨w, cell, hw, is, -⟩
    rw [only hw, h] at is
    cases is

/-- The value's own cell is the same in both memories. -/
def SameCell (m m' : Memory) : Value → Prop
  | .point cell => m'.point cell = m.point cell
  | .rect cell => m'.rect cell = m.rect cell
  | .list cell | .argList cell | .argListNoRet cell => m'.list cell = m.list cell
  | .propList cell => m'.props cell = m.props cell
  | _ => True

/-! ## Values without a text -/

section

variable {α β : Type} {f g : α → Option β} {xs : List α}

theorem mapM_eq_none : xs.mapM f = none ↔ ∃ x ∈ xs, f x = none := by
  induction xs with
  | nil => simp
  | cons x xs ih =>
    rw [List.mapM_cons, List.exists_mem_cons_iff, ← ih]
    cases f x with
    | none => simp
    | some y => cases xs.mapM f <;> simp

theorem mapM_isSome (h : ∀ x ∈ xs, (f x).isSome) : (xs.mapM f).isSome := by
  rw [Option.isSome_iff_ne_none]
  intro none
  obtain ⟨x, hx, undefined⟩ := mapM_eq_none.mp none
  exact Option.isSome_iff_ne_none.mp (h x hx) undefined

theorem mapM_congr (h : ∀ x ∈ xs, f x = g x) : xs.mapM f = xs.mapM g := by
  induction xs with
  | nil => rfl
  | cons x xs ih =>
    rw [List.mapM_cons, List.mapM_cons, h x (List.mem_cons_self ..),
      ih fun y hy => h y (List.mem_cons_of_mem x hy)]

end

/-- The values that are displayed with a value: of an argument list only the size is. -/
def shown (m : Memory) : Value → List Value
  | .list cell => (m.list cell).toList
  | .propList cell => (m.props cell).values
  | _ => []

/-- The second value is displayed with the first, at some depth. -/
abbrev Shows (m : Memory) : Value → Value → Prop :=
  Relation.ReflTransGen fun v w => w ∈ m.shown v

theorem mem_parts_of_mem_shown (h : w ∈ m.shown v) : w ∈ m.parts v := by
  cases v <;> first | exact h | cases h

theorem Shows.reaches (h : m.Shows v w) : m.Reaches v w := by
  induction h with
  | refl => exact .refl
  | tail _ hw ih => exact ih.tail (mem_parts_of_mem_shown hw)

theorem displayTo?_propList (m : Memory) (written : Option Nat) (n cell : Nat) :
    m.displayTo? written (n + 1) (.propList cell) =
      if written = some cell then none
      else
        ((m.props cell).entries.mapM fun e =>
          (m.displayTo? written n e.2).map fun shown => "#" ++ e.1 ++ ": " ++ shown).map fun
          | [] => "[:]"
          | entries => "[" ++ ", ".intercalate entries ++ "]" :=
  rfl

/-- If it is displayed deep enough, a value has no text only because the property list that
is being written is displayed with it. -/
theorem displayTo?_eq_none {written : Option Nat} (hn : m.Nested n v) :
    m.displayTo? written n v = none ↔ ∃ cell, written = some cell ∧ m.Shows v (.propList cell) := by
  induction n generalizing v with
  | zero => exact hn.elim
  | succ n ih =>
    have below {w : Value} (hw : w ∈ m.shown v) :
        m.displayTo? written n w = none ↔
          ∃ cell, written = some cell ∧ m.Shows w (.propList cell) :=
      ih (hn w (mem_parts_of_mem_shown hw))
    have way {cell : Nat} (other : v ≠ .propList cell) :
        m.Shows v (.propList cell) ↔ ∃ w ∈ m.shown v, m.Shows w (.propList cell) :=
      Relation.ReflTransGen.cases_head_iff.trans (or_iff_right other)
    cases v with
    | list items =>
      rw [displayTo?, Option.map_eq_none_iff, mapM_eq_none]
      constructor
      · rintro ⟨w, hw, h⟩
        obtain ⟨cell, is, shows⟩ := (below hw).mp h
        exact ⟨cell, is, (way (by simp)).mpr ⟨w, hw, shows⟩⟩
      · rintro ⟨cell, is, shows⟩
        obtain ⟨w, hw, shows⟩ := (way (by simp)).mp shows
        exact ⟨w, hw, (below hw).mpr ⟨cell, is, shows⟩⟩
    | propList own =>
      rw [displayTo?_propList]
      split
      · rename_i is
        exact iff_of_true rfl ⟨own, is, .refl⟩
      · rename_i other
        simp only [Option.map_eq_none_iff, mapM_eq_none]
        constructor
        · rintro ⟨e, he, h⟩
          have hw : e.2 ∈ m.shown (.propList own) := List.mem_map_of_mem he
          obtain ⟨cell, is, shows⟩ := (below hw).mp h
          exact ⟨cell, is, .head hw shows⟩
        · rintro ⟨cell, is, shows⟩
          obtain ⟨w, hw, shows⟩ := (way fun same => other (Value.propList.inj same ▸ is)).mp shows
          obtain ⟨e, he, rfl⟩ := List.mem_map.mp hw
          exact ⟨e, he, (below hw).mpr ⟨cell, is, shows⟩⟩
    | _ =>
      refine iff_of_false (by simp [displayTo?]) ?_
      rintro ⟨cell, -, shows⟩
      obtain ⟨w, hw, -⟩ := (way (by simp)).mp shows
      cases hw

/-- While a property list is being written, a value has no text if that list is displayed
with it. -/
theorem textWhile?_eq_none {written : Option Nat} (acyclic : m.Acyclic v) :
    m.textWhile? written v = none ↔ ∃ cell, written = some cell ∧ m.Shows v (.propList cell) := by
  have displayed : m.displayTo? written m.levels v = none ↔ _ :=
    displayTo?_eq_none (nested_of_acyclic acyclic)
  cases v with
  | void | text s | symbol s =>
    refine iff_of_false (fun h => nomatch h) ?_
    rintro ⟨cell, is, shows⟩
    exact nomatch displayed.mpr ⟨cell, is, shows⟩
  | _ => exact displayed

/-- A value that does not contain itself can be displayed. -/
theorem display?_isSome (acyclic : m.Acyclic v) : (m.display? v).isSome := by
  rw [Option.isSome_iff_ne_none]
  intro h
  obtain ⟨_, is, -⟩ := (displayTo?_eq_none (nested_of_acyclic acyclic)).mp h
  cases is

/-- Such a value has a text. -/
theorem text?_isSome (acyclic : m.Acyclic v) : (m.text? v).isSome := by
  rw [Option.isSome_iff_ne_none]
  intro h
  obtain ⟨_, is, -⟩ := (textWhile?_eq_none acyclic).mp h
  cases is

/-- A line with a value in it has an end where no value contains itself. -/
theorem Founded.line_isSome (founded : m.Founded) (v : Value) (line : String → String) :
    ((m.display? v).map line).isSome :=
  Option.isSome_map.trans (display?_isSome (founded v))

/-! ## Texts in two memories -/

/-- How deep a value is displayed is of no importance once it is deep enough. -/
theorem displayTo?_congr {written : Option Nat} (same : ∀ w, m.Reaches v w → m.SameCell m' w)
    (hn : m.Nested n v) (hk : m.Nested k v) :
    m'.displayTo? written k v = m.displayTo? written n v := by
  induction n generalizing k v with
  | zero => exact hn.elim
  | succ n ih =>
    cases k with
    | zero => exact hk.elim
    | succ k =>
      have here : m.SameCell m' v := same v .refl
      have parts : ∀ w ∈ m.parts v, m'.displayTo? written k w = m.displayTo? written n w :=
        fun w hw => ih (fun u hu => same u (.head hw hu)) (hn w hw) (hk w hw)
      cases v with
      | point cell =>
        exact congrArg (fun p : Point =>
          some ("point(" ++ intText p.x ++ ", " ++ intText p.y ++ ")")) here
      | rect cell =>
        exact congrArg (fun r : Rect => some ("rect(" ++ intText r.left ++ ", " ++ intText r.top ++
          ", " ++ intText r.right ++ ", " ++ intText r.bottom ++ ")")) here
      | argList cell =>
        exact congrArg (fun items : Array Value => some s!"<arglist:{items.size}>") here
      | argListNoRet cell =>
        exact congrArg (fun items : Array Value => some s!"<arglist-noret:{items.size}>") here
      | list cell =>
        have elements : (m.list cell).toList.mapM (m'.displayTo? written k) =
            (m.list cell).toList.mapM (m.displayTo? written n) := mapM_congr parts
        rw [displayTo?, displayTo?, show m'.list cell = m.list cell from here, elements]
      | propList cell =>
        rw [displayTo?_propList, displayTo?_propList, show m'.props cell = m.props cell from here,
          mapM_congr fun e he => by rw [parts e.2 (List.mem_map_of_mem he)]]
      | _ => rfl

/-- The text of a value depends on the cells that it leads to. -/
theorem textWhile?_congr {written : Option Nat} (acyclic : m.Acyclic v)
    (same : ∀ w, m.Reaches v w → m.SameCell m' w) (le : m.levels ≤ m'.levels) :
    m'.textWhile? written v = m.textWhile? written v := by
  have nested := nested_of_acyclic acyclic
  have displayed : m'.displayTo? written m'.levels v = m.displayTo? written m.levels v :=
    displayTo?_congr same nested (nested.mono le)
  cases v with
  | void | text | symbol => rfl
  | _ => exact displayed

theorem text_congr (acyclic : m.Acyclic v) (same : ∀ w, m.Reaches v w → m.SameCell m' w)
    (le : m.levels ≤ m'.levels) : m'.text v = m.text v :=
  congrArg (·.getD "") (textWhile?_congr acyclic same le)

/-! ## Writes -/

theorem modify_eq_modify_const {α : Type} {xs : Array α} {i : Nat} (f : α → α) (h : i < xs.size) :
    xs.modify i f = xs.modify i fun _ => f xs[i] := by
  refine Array.ext_getElem? fun j => ?_
  rw [Array.getElem?_modify, Array.getElem?_modify]
  split
  · rename_i eq
    subst eq
    rw [Array.getElem?_eq_getElem h, Option.map_some, Option.map_some]
  · rfl

theorem list_modifyList (f : Array Value → Array Value) (placed : cell < m.lists.size) :
    (m.modifyList cell f).list cell = f (m.list cell) := by
  simp only [list, modifyList, Array.getElem?_modify, if_pos, Array.getElem?_eq_getElem placed,
    Option.map_some, Option.getD_some]

/-- A cell's change is known from what is in it then. -/
theorem modifyList_eq (f : Array Value → Array Value) (placed : cell < m.lists.size) :
    m.modifyList cell f = m.modifyList cell fun _ => (m.modifyList cell f).list cell := by
  rw [list_modifyList f placed, modifyList, modifyList, modify_eq_modify_const f placed, list,
    Array.getElem?_eq_getElem placed]
  rfl

theorem list_modifyList_ne (m : Memory) (f : Array Value → Array Value) {other : Nat}
    (h : other ≠ cell) : (m.modifyList cell f).list other = m.list other := by
  simp only [list, modifyList, Array.getElem?_modify, if_neg (Ne.symm h)]

theorem props_modifyProps (f : Bindings Value → Bindings Value)
    (placed : cell < m.propLists.size) :
    (m.modifyProps cell f).props cell = f (m.props cell) := by
  simp only [props, modifyProps, Array.getElem?_modify, if_pos, Array.getElem?_eq_getElem placed,
    Option.map_some, Option.getD_some]

theorem modifyProps_eq (f : Bindings Value → Bindings Value) (placed : cell < m.propLists.size) :
    m.modifyProps cell f = m.modifyProps cell fun _ => (m.modifyProps cell f).props cell := by
  rw [props_modifyProps f placed, modifyProps, modifyProps, modify_eq_modify_const f placed, props,
    Array.getElem?_eq_getElem placed]
  rfl

theorem props_modifyProps_ne (m : Memory) (f : Bindings Value → Bindings Value) {other : Nat}
    (h : other ≠ cell) : (m.modifyProps cell f).props other = m.props other := by
  simp only [props, modifyProps, Array.getElem?_modify, if_neg (Ne.symm h)]

namespace Apart

/-- A value that is apart from a property list can be its key. -/
theorem textWhile?_isSome (h : m.Apart v (.propList cell)) :
    (m.textWhile? (some cell) v).isSome := by
  rw [Option.isSome_iff_ne_none]
  intro gap
  obtain ⟨_, same, shows⟩ := (textWhile?_eq_none h.acyclic).mp gap
  cases same
  exact h.apart ⟨.propList cell, .inr cell, shows.reaches, rfl, rfl⟩

theorem text_modifyList (h : m.Apart v (.list cell)) (f : Array Value → Array Value) :
    (m.modifyList cell f).text v = m.text v := by
  refine text_congr h.acyclic (fun w hw => ?_) ?_
  · have other (c : Nat) (hc : w.cell? = some (.inl c)) : (m.modifyList cell f).list c = m.list c :=
      list_modifyList_ne m f fun eq => h.apart ⟨w, .inl c, hw, hc, by rw [eq]; rfl⟩
    cases w <;> first | trivial | exact other _ rfl
  · simp only [levels, modifyList, Array.size_modify, Nat.le_refl]

theorem text_modifyProps (h : m.Apart v (.propList cell)) (f : Bindings Value → Bindings Value) :
    (m.modifyProps cell f).text v = m.text v := by
  refine text_congr h.acyclic (fun w hw => ?_) ?_
  · have other (c : Nat) (hc : w.cell? = some (.inr c)) :
        (m.modifyProps cell f).props c = m.props c :=
      props_modifyProps_ne m f fun eq => h.apart ⟨w, .inr c, hw, hc, by rw [eq]; rfl⟩
    cases w <;> first | trivial | exact other _ rfl
  · simp only [levels, modifyProps, Array.size_modify, Nat.le_refl]

/-- Cells made later are not in values made before; and no object is displayed with its
properties. -/
theorem textWhile?_pushProps {container : Value} (h : m.Apart v container)
    (written : Option Nat) (b : Bindings Value) (heap : Heap) :
    Memory.textWhile? { m with propLists := m.propLists.push b, heap } written v =
      m.textWhile? written v := by
  refine textWhile?_congr h.acyclic (fun w hw => ?_) ?_
  · have placed := h.whole w hw
    cases w with
    | propList c =>
      show ((m.propLists.push b)[c]?).getD {} = _
      rw [Array.getElem?_push, if_neg (Nat.ne_of_lt placed.1)]
      rfl
    | _ => trivial
  · simp only [levels, Array.size_push]
    omega

end Apart

end Lingo.Memory
