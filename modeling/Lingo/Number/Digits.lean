/-!
# Digits

The number with given digits in a radix, the least significant digit first.

* `horner` adds the digits up one after another.
* `ofDigits` is quick also for long lists: it joins digits in pairs, which are
  the digits in the squared radix, until few are left. It gives the same number
  (`ofDigits_eq_horner`).
-/

namespace Lingo.Number

/-- The number with the given digits, the least significant first. -/
def horner (radix : Nat) : List Nat → Nat
  | [] => 0
  | d :: rest => d + radix * horner radix rest

/-- Joins the digits of a number in pairs: its digits in the squared radix. -/
def pairDigits (radix : Nat) : List Nat → List Nat
  | low :: high :: rest => (low + radix * high) :: pairDigits radix rest
  | ds => ds

/-- The number with the given digits, which are first joined in pairs a number
of times. -/
def joinDigits : Nat → Nat → List Nat → Nat
  | 0, radix, ds => horner radix ds
  | rounds + 1, radix, ds => joinDigits rounds (radix * radix) (pairDigits radix ds)

/-- The number with the given digits, the least significant first. Every round
halves the digits, so that one or two are left at the end. -/
def ofDigits (radix : Nat) (ds : List Nat) : Nat :=
  joinDigits ds.length.log2 radix ds

theorem horner_pairDigits (radix : Nat) (ds : List Nat) :
    horner (radix * radix) (pairDigits radix ds) = horner radix ds := by
  fun_induction pairDigits radix ds with
  | case1 low high rest ih =>
    rw [horner, ih, horner, horner, Nat.mul_add, Nat.mul_assoc, Nat.add_assoc]
  | case2 ds h =>
    match ds, h with
    | [], _ => rfl
    | [d], _ => rfl
    | low :: high :: rest, h => exact (h low high rest rfl).elim

theorem joinDigits_eq_horner (rounds radix : Nat) (ds : List Nat) :
    joinDigits rounds radix ds = horner radix ds := by
  induction rounds generalizing radix ds with
  | zero => rfl
  | succ rounds ih => rw [joinDigits, ih, horner_pairDigits]

theorem ofDigits_eq_horner (radix : Nat) (ds : List Nat) :
    ofDigits radix ds = horner radix ds :=
  joinDigits_eq_horner _ radix ds

end Lingo.Number
