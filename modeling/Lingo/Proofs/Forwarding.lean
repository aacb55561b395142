import Mathlib.Data.List.Nodup
import Mathlib.Data.List.Perm.Subperm
import Mathlib.Data.Nat.Find
import Lingo.Proofs.Callee

/-!
# Calls that the host forwards

A function of the host may answer a call with a call of its own by name, and
that may come to a function of the host again. Such calls take no frame, and they
only come to an end if no function forwards its calls in a circle
(`ForwardsEnd`).

`settles_length`: a call is then forwarded at most as often as there are
functions. A method of an object constructs ancestors, and the host may forward
constructors as well, so that a second chain of calls may follow the first. No
third one does: the first argument of a constructor is a script (`Reenters`).
`Hosting.upTo` grants the calls that are forwarded less often than a number.
-/

namespace Lingo

open Machine

variable {functions : List (String × HostFunction)}

/-! ## Chains of calls -/

/-- A call that comes to `key` is forwarded at most so many times. -/
def Settles (functions : List (String × HostFunction)) : Nat → String → Prop
  | 0, key => ∀ name, functions.lookup key ≠ some (.forward name)
  | n + 1, key => ∀ name, functions.lookup key = some (.forward name) →
    Settles functions n (Text.asciiLower name)

/-- No function of the host forwards its calls in a circle. -/
def ForwardsEnd (functions : List (String × HostFunction)) : Prop :=
  ∀ key, ∃ n, Settles functions n key

theorem Settles.succ {n : Nat} {key : String} (h : Settles functions n key) :
    Settles functions (n + 1) key := by
  induction n generalizing key with
  | zero => exact fun name hn => absurd hn (h name)
  | succ n ih => exact fun name hn => ih (h name hn)

theorem Settles.mono {n k : Nat} (hnk : n ≤ k) {key : String} (h : Settles functions n key) :
    Settles functions k key := by
  induction hnk with
  | refl => exact h
  | step _ ih => exact ih.succ

theorem Settles.of_forward {n : Nat} {key name : String}
    (hn : functions.lookup key = some (.forward name))
    (h : Settles functions n (Text.asciiLower name)) : Settles functions (n + 1) key := by
  intro name' hn'
  cases hn.symm.trans hn'
  exact h

/-- Where a call settles after `n` steps and not before, the functions that it
comes to on the way are all different. -/
theorem settles_chain {n : Nat} {key : String} (h : Settles functions n key)
    (late : ∀ j < n, ¬ Settles functions j key) :
    ∃ keys : List String, keys.Nodup ∧ keys ⊆ functions.map Prod.fst ∧ keys.length = n ∧
      ∀ k ∈ keys, Settles functions n k := by
  induction n generalizing key with
  | zero => exact ⟨[], List.nodup_nil, List.nil_subset _, rfl, fun k hk => nomatch hk⟩
  | succ n ih =>
    obtain ⟨name, hn⟩ : ∃ name, functions.lookup key = some (.forward name) := by
      simpa [Settles] using late 0 (Nat.zero_lt_succ n)
    obtain ⟨keys, nodup, known, length, settle⟩ := ih (h name hn) fun j hj hs =>
      late (j + 1) (Nat.succ_lt_succ hj) (.of_forward hn hs)
    have fresh : key ∉ keys := fun hk => late n (Nat.lt_succ_self n) (settle key hk)
    have here : key ∈ functions.map Prod.fst :=
      List.mem_map_of_mem (f := Prod.fst) (Bindings.mem_of_lookup hn)
    refine ⟨key :: keys, nodup.cons fresh, List.cons_subset.mpr ⟨here, known⟩,
      congrArg (· + 1) length, fun k hk => ?_⟩
    rcases List.mem_cons.mp hk with rfl | hk
    · exact h
    · exact (settle k hk).succ

/-- A call is forwarded at most as often as there are functions. -/
theorem settles_length (ends : ForwardsEnd functions) (key : String) :
    Settles functions functions.length key := by
  classical
  have least := Nat.find_spec (ends key)
  obtain ⟨keys, nodup, known, length, -⟩ :=
    settles_chain least fun j hj => Nat.find_min (ends key) hj
  have few := (List.subperm_of_subset nodup known).length_le
  rw [length, List.length_map] at few
  exact least.mono few

/-! ## Calls by name -/

/-- A call by name is forwarded at most `k` times, those of the constructors
included that its builtin function comes to. -/
def Reenters (functions : List (String × HostFunction)) (k : Nat) (name : String)
    (args : Array Value) : Prop :=
  ∃ i j, i + j ≤ k ∧ Settles functions i (Text.asciiLower name) ∧
    ∀ id, args[0]? = some (.object id) → Settles functions j "new"

/-- The calls that are forwarded less than `k` times once they are forwarded. -/
def Hosting.upTo (functions : List (String × HostFunction)) (k : Nat) : Hosting where
  functions
  mayForward name args := ∃ j < k, Reenters functions j name args

theorem Settles.forwarded {n : Nat} {key name : String} (h : Settles functions n key)
    (hn : functions.lookup key = some (.forward name)) :
    ∃ i, n = i + 1 ∧ Settles functions i (Text.asciiLower name) := by
  cases n with
  | zero => exact absurd hn (h name)
  | succ i => exact ⟨i, rfl, h name hn⟩

/-- Each call that comes of a call by name is forwarded less often. -/
theorem Reenters.serves {k : Nat} {name : String} {args : Array Value}
    (h : Reenters functions k name args) : (Hosting.upTo functions k).Serves name args := by
  obtain ⟨i, j, sum, named, new⟩ := h
  constructor
  · intro next hn
    obtain ⟨i, rfl, settles⟩ := named.forwarded hn
    exact ⟨i + j, by omega, i, j, Nat.le_refl _, settles, new⟩
  · intro id object ref next hn
    obtain ⟨j, rfl, settles⟩ := (new id object).forwarded hn
    exact ⟨j, by omega, j, 0, Nat.le_refl _, settles, fun id hid => nomatch hid⟩

/-- No call comes to more than two chains of calls. -/
theorem reenters_twice (ends : ForwardsEnd functions) (name : String) (args : Array Value) :
    Reenters functions (2 * functions.length) name args := by
  have all := settles_length ends
  exact ⟨_, _, by omega, all _, fun _ _ => all "new"⟩

theorem Hosting.upTo_open (ends : ForwardsEnd functions) :
    (Hosting.upTo functions (2 * functions.length + 1)).Open :=
  fun _ args name _ => ⟨_, Nat.lt_succ_self _, reenters_twice ends name args⟩

end Lingo
