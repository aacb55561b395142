import Lingo.Memory

/-!
# Copies

`Memory.copy` copies a value together with the containers in it: every list,
property list, argument list, point and rect gets a cell of its own. A script
object gets a new place in the heap with the same property values; a handle
that addresses no object is kept.
-/

namespace Lingo.Memory

open Alloc

/-- Copies a value, looking `fuel - 1` levels into containers. -/
def copyTo : Nat → Value → Alloc Value
  | 0, v => pure v
  | fuel + 1, v => do
    match v with
    | .point cell => newPoint ((← get).point cell)
    | .rect cell => newRect ((← get).rect cell)
    | .list cell => newList (← ((← get).list cell).mapM (copyTo fuel))
    | .argList cell => newArgList (← ((← get).list cell).mapM (copyTo fuel))
    | .argListNoRet cell => newArgListNoRet (← ((← get).list cell).mapM (copyTo fuel))
    | .propList cell =>
      let entries ← ((← get).props cell).entries.mapM fun (k, v) => return (k, ← copyTo fuel v)
      newPropList ⟨entries⟩
    | .object id =>
      match ← cloneObject? id with
      | some copy => pure (.object copy)
      | none => pure v
    | v => pure v

/-- A copy of a value that shares no container with it. -/
def copy (v : Value) : Alloc Value := do
  copyTo (← get).levels v

end Lingo.Memory
