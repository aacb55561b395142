import Lingo.Proofs.Ancestry
import Lingo.Proofs.Equality
import Lingo.Proofs.Growth

/-!
# Property lists stay maps

Equality looks property lists up by name, and so needs that none of them binds a name twice
(`Memory.Keyed`). `Keying f` says that a computation on the memory keeps that, and all that
make or change a property list do:

* `Keying.newPropList`, `Keying.alternating`: property lists that are made, also from names
  and values that alternate;
* `Keying.bindKey`, `Keying.eraseKey`, `Keying.setIdx`: entries that are set and deleted;
* `Keying.copyTo`: copies, which have the names of what they are copies of;
* `Keying.propListMethod`: the methods of property lists.
-/

namespace Lingo

namespace Bindings

variable {α : Type} {b : Bindings α}

theorem nodup_insert (distinct : b.keys.Nodup) (name : String) (value : α) :
    (b.insert name value).keys.Nodup := by
  cases sets_insert b name value with
  | replaced before old after first was is =>
    have same : (b.insert name value).keys = b.keys := by
      rw [keys, keys, is, was, List.map_append, List.map_append, List.map_cons, List.map_cons]
    rw [same]
    exact distinct
  | added new is =>
    rw [keys, is, List.map_append, List.map_singleton]
    refine List.nodup_append.mpr ⟨distinct, List.nodup_singleton _, fun k hk k' hk' same => ?_⟩
    rw [same, List.mem_singleton.mp hk'] at hk
    exact new hk

theorem nodup_erase (distinct : b.keys.Nodup) (name : String) : (b.erase name).keys.Nodup :=
  distinct.sublist (List.filter_sublist.map _)

theorem keys_setIdx (b : Bindings α) (i : Nat) (value : α) : (b.setIdx i value).keys = b.keys := by
  refine List.ext_getElem? fun k => ?_
  rw [keys, keys, setIdx, List.getElem?_map, List.getElem?_map, List.getElem?_modify]
  cases b.entries[k]? with
  | none => rfl
  | some e =>
    by_cases same : i = k
    · simp [same]
    · simp [same]

theorem nodup_ofList (pairs : List (String × α)) : (ofList pairs).keys.Nodup := by
  have from' (pairs : List (String × α)) {b : Bindings α} (distinct : b.keys.Nodup) :
      (pairs.foldl (fun b e => b.insert e.1 e.2) b).keys.Nodup := by
    induction pairs generalizing b with
    | nil => exact distinct
    | cons e pairs ih => exact ih (nodup_insert distinct _ _)
  exact from' pairs List.nodup_nil

end Bindings

variable {α β : Type}

/-- Keeps the names of every property list distinct. -/
def Keying (f : Alloc α) : Prop :=
  ∀ m : Memory, m.Keyed → (f m).2.Keyed

namespace Keying

protected theorem pure (v : α) : Keying (pure v : Alloc α) :=
  fun _ keyed => keyed

protected theorem bind {f : Alloc α} {g : α → Alloc β} (hf : Keying f)
    (hg : ∀ v, Keying (g v)) : Keying (f >>= g) :=
  fun m keyed => hg (f m).1 (f m).2 (hf m keyed)

/-- A computation that depends on a memory whose names are distinct. -/
theorem read {f : Memory → Alloc α} (h : ∀ m : Memory, m.Keyed → Keying (f m)) :
    Keying (get >>= f) :=
  fun m keyed => h m keyed m keyed

/-- Computations that leave property lists alone. -/
theorem quiet {f : Alloc α} (h : ∀ m : Memory, (f m).2.propLists = m.propLists) : Keying f := by
  intro m keyed
  rw [Memory.Keyed, h m]
  exact keyed

theorem mapM {f : α → Alloc β} (h : ∀ v, Keying (f v)) (xs : List α) : Keying (xs.mapM f) :=
  Alloc.mapM_leads (R := fun m m' => m.Keyed → m'.Keyed) (fun _ => id) (fun h h' => h' ∘ h) h xs

theorem mapM_array {f : α → Alloc β} (h : ∀ v, Keying (f v)) (xs : Array α) :
    Keying (xs.mapM f) :=
  Alloc.mapM_array_leads (R := fun m m' => m.Keyed → m'.Keyed) (fun _ => id)
    (fun h h' => h' ∘ h) h xs

/-! ## Property lists that are made and changed -/

theorem newPropList {entries : Bindings Value} (distinct : entries.keys.Nodup) :
    Keying (Alloc.newPropList entries) := by
  intro m keyed b hb
  rcases Array.mem_push.mp hb with old | new
  · exact keyed b old
  · rw [new]
    exact distinct

theorem alternating (pairs : List (String × Value)) :
    Keying (Alloc.newPropList (.ofList pairs)) :=
  newPropList (Bindings.nodup_ofList pairs)

theorem modifyProps (cell : Nat) {f : Bindings Value → Bindings Value}
    (keeps : ∀ b, b.keys.Nodup → (f b).keys.Nodup) : Keying (modify (·.modifyProps cell f)) := by
  intro m keyed b hb
  obtain ⟨i, hi⟩ := Array.mem_iff_getElem?.mp hb
  change (m.propLists.modify cell f)[i]? = some b at hi
  rw [Array.getElem?_modify] at hi
  split at hi
  · obtain ⟨old, found, rfl⟩ := Option.map_eq_some_iff.mp hi
    exact keeps old (keyed old (Array.mem_of_getElem? found))
  · exact keyed b (Array.mem_of_getElem? hi)

/-- Changes with a key that keep names distinct, whatever the key. -/
theorem writeKey (cell : Nat) (key : Value) {f : String → Bindings Value → Bindings Value}
    (keeps : ∀ name b, b.keys.Nodup → (f name b).keys.Nodup) :
    Keying (PropListMethod.writeKey cell key f) := by
  intro m keyed
  have same : (PropListMethod.writeKey cell key f m).2.propLists =
      (m.modifyProps cell (f (m.text key))).propLists := rfl
  have kept := modifyProps cell (keeps (m.text key)) m keyed
  rw [Memory.Keyed, same]
  exact kept

theorem bindKey (cell : Nat) (key value : Value) : Keying (PropListMethod.bind cell key value) :=
  writeKey cell key fun name _ distinct => Bindings.nodup_insert distinct name value

theorem eraseKey (cell : Nat) (key : Value) :
    Keying (PropListMethod.writeKey cell key fun name entries => entries.erase name) :=
  writeKey cell key fun name _ distinct => Bindings.nodup_erase distinct name

theorem setIdx (cell i : Nat) (value : Value) :
    Keying (modify (·.modifyProps cell (·.setIdx i value))) :=
  modifyProps cell fun b distinct => (b.keys_setIdx i value).symm ▸ distinct

theorem copyTo (n : Nat) (v : Value) : Keying (Memory.copyTo n v) := by
  induction n generalizing v with
  | zero => exact .pure v
  | succ n ih =>
    have items (xs : Array Value) : Keying (xs.mapM (Memory.copyTo n)) := mapM_array ih xs
    cases v with
    | point | rect => exact .read fun _ _ => .quiet fun _ => rfl
    | list | argList | argListNoRet =>
      exact .read fun _ _ => .bind (items _) fun _ => .quiet fun _ => rfl
    | propList cell =>
      intro m keyed
      obtain ⟨c, m', names, values, run⟩ := Memory.copyTo_propList n cell m
      have before : m'.Keyed := by
        have made := mapM ih (m.props cell).values m keyed
        rwa [values] at made
      rw [run]
      exact newPropList (names ▸ keyed.props cell) m' before
    | object id =>
      refine .bind (.quiet fun m => ?_) fun copy? => ?_
      · simp only [Alloc.cloneObject?, modifyGet, MonadStateOf.modifyGet, StateT.modifyGet]
        cases m.heap.clone? id <;> rfl
      · cases copy? <;> exact .pure _
    | _ => exact .pure _

theorem copy (v : Value) : Keying (Memory.copy v) :=
  .read fun _ _ => copyTo _ v

theorem propListMethod (cell : Nat) (args : Array Value) (method : PropListMethod) :
    Keying (method.run cell args) := by
  have acts := PropListMethod.run_acts cell args method
  generalize method.run cell args = f at acts ⊢
  cases acts with
  | look same => exact .quiet fun m => by rw [same]
  | bind key value => exact .bind (bindKey cell key value) fun _ => .pure _
  | erase key => exact .bind (eraseKey cell key) fun _ => .pure _
  | setIdx i value => exact .bind (setIdx cell i value) fun _ => .pure _
  | copy => exact copy _

end Keying

end Lingo
