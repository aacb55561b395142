import Lingo.Text.Ascii

/-!
# Bindings

A table from names to values that remembers the order in which names were
first bound. Names are told apart exactly; the look-ups whose name ends in
`Folded` ignore ASCII case and take the first match.

The main facts are what `get?` gives after `insert` (`get?_insert`) and after
`erase` (`get?_erase`).
-/

namespace Lingo

/-- Named values in the order of first insertion. -/
structure Bindings (α : Type) where
  entries : List (String × α) := []
  deriving DecidableEq, Repr, Inhabited

namespace Bindings

variable {α : Type}

def keys (b : Bindings α) : List String :=
  b.entries.map (·.1)

def values (b : Bindings α) : List α :=
  b.entries.map (·.2)

def size (b : Bindings α) : Nat :=
  b.entries.length

/-- The value bound to a name. -/
def get? (b : Bindings α) (key : String) : Option α :=
  b.entries.lookup key

def contains (b : Bindings α) (key : String) : Bool :=
  (b.get? key).isSome

/-- Binds a name: a new one at the end, a bound one in its place. -/
def insertEntries (key : String) (value : α) : List (String × α) → List (String × α)
  | [] => [(key, value)]
  | (k, v) :: rest =>
    if k == key then (k, value) :: rest else (k, v) :: insertEntries key value rest

/-- Binds a name to a value. -/
def insert (b : Bindings α) (key : String) (value : α) : Bindings α :=
  ⟨insertEntries key value b.entries⟩

/-- Binds names from left to right. -/
def ofList (pairs : List (String × α)) : Bindings α :=
  pairs.foldl (fun b (k, v) => b.insert k v) {}

/-- Removes a name; the others keep their order. -/
def erase (b : Bindings α) (key : String) : Bindings α :=
  ⟨b.entries.filter (·.1 != key)⟩

/-- The first entry whose name agrees up to ASCII case. -/
def findFolded? (b : Bindings α) (key : String) : Option (String × α) :=
  b.entries.find? fun e => Text.sameName e.1 key

/-- Position of that entry. -/
def findIdxFolded? (b : Bindings α) (key : String) : Option Nat :=
  b.entries.findIdx? fun e => Text.sameName e.1 key

/-- The value of that entry. -/
def getFolded? (b : Bindings α) (key : String) : Option α :=
  (b.findFolded? key).map (·.2)

/-- Replaces the value at a position, if there is one. -/
def setIdx (b : Bindings α) (i : Nat) (value : α) : Bindings α :=
  ⟨b.entries.modify i fun e => (e.1, value)⟩

theorem lookup_insertEntries (es : List (String × α)) (key k : String) (value : α) :
    (insertEntries key value es).lookup k = if k = key then some value else es.lookup k := by
  induction es with
  | nil => by_cases h : k = key <;> simp [insertEntries, List.lookup_cons, h, beq_eq_false_iff_ne.2]
  | cons e rest ih =>
    obtain ⟨k', v'⟩ := e
    by_cases h : k' = key
    · subst h
      by_cases hk : k = k' <;> simp [insertEntries, List.lookup_cons, hk, beq_eq_false_iff_ne.2]
    · by_cases hk : k = k'
      · subst hk
        simp [insertEntries, h]
      · simp [insertEntries, List.lookup_cons, h, hk, ih, beq_eq_false_iff_ne.2]

theorem get?_insert (b : Bindings α) (key k : String) (value : α) :
    (b.insert key value).get? k = if k = key then some value else b.get? k :=
  lookup_insertEntries b.entries key k value

@[simp] theorem get?_insert_self (b : Bindings α) (key : String) (value : α) :
    (b.insert key value).get? key = some value := by
  simp [get?_insert]

theorem lookup_filter_ne {κ : Type} [DecidableEq κ] (es : List (κ × α)) (key k : κ) :
    (es.filter (·.1 != key)).lookup k = if k = key then none else es.lookup k := by
  induction es with
  | nil => simp
  | cons e rest ih =>
    obtain ⟨k', v'⟩ := e
    by_cases h : k' = key
    · rw [List.filter_cons_of_neg (by simp [h]), ih]
      by_cases hk : k = key <;> simp [List.lookup_cons, h, hk, beq_eq_false_iff_ne.2]
    · rw [List.filter_cons_of_pos (by simp [h]), List.lookup_cons, List.lookup_cons, ih]
      by_cases hk : k = k'
      · simp [hk, h]
      · simp [hk, beq_eq_false_iff_ne.2]

theorem mem_of_lookup {κ : Type} [DecidableEq κ] {es : List (κ × α)} {key : κ} {value : α}
    (h : es.lookup key = some value) : (key, value) ∈ es := by
  obtain ⟨before, behind, rfl, -⟩ := List.lookup_eq_some_iff.mp h
  exact List.mem_append_right _ List.mem_cons_self

theorem get?_erase (b : Bindings α) (key k : String) :
    (b.erase key).get? k = if k = key then none else b.get? k :=
  lookup_filter_ne b.entries key k

end Bindings

end Lingo
