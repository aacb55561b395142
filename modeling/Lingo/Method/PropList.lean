import Lingo.Memory.Copy
import Lingo.Memory.Likeness
import Lingo.Method.Table

/-!
# Methods of property lists

Entries are addressed by key, told apart exactly, or by position, counted from
1. The key of a value is its text.

An entry is written while its key is still being made out. Where that leads to the
property list itself, as with a list that is its own key, the run breaks off.
-/

namespace Lingo

inductive PropListMethod where
  | count | getAt | getProp | setProp | deleteProp | getPropAt | setAt | findPos | getOne
  | getLast | duplicate
  deriving DecidableEq, Repr

namespace PropListMethod

def table : MethodTable PropListMethod :=
  [("count", count), ("getat", getAt), ("getprop", getProp), ("getaprop", getProp),
   ("setprop", setProp), ("setaprop", setProp), ("addprop", setProp),
   ("deleteprop", deleteProp), ("getpropat", getPropAt), ("setat", setAt),
   ("findpos", findPos), ("getone", getOne), ("getlast", getLast), ("duplicate", duplicate)]

/-- The value under a key; void when there is none. -/
def valueOf (m : Memory) (cell : Nat) (key : Value) : Value :=
  ((m.props cell).get? (m.text key)).getD .void

/-- Whether a value cannot be made out as a key while the property list is being
written: it leads to that list, or to one that contains itself. -/
def clashes (m : Memory) (cell : Nat) (key : Value) : Bool :=
  (m.textWhile? (some cell) key).isNone

/-- Changes the entries of a property list with a key. -/
def writeKey (cell : Nat) (key : Value) (f : String → Bindings Value → Bindings Value) :
    Alloc Unit :=
  modify fun m => (m.modifyProps cell (f (m.text key))).breakOffIf (clashes m cell key)

/-- Binds a key. -/
def bind (cell : Nat) (key value : Value) : Alloc Unit :=
  writeKey cell key fun name entries => entries.insert name value

/-- Calls a method of a property list. -/
def run (cell : Nat) (args : Array Value) : PropListMethod → Alloc Value
  | count => return .ofNat ((← get).props cell).size
  | getAt => do
    match args[0]? with
    | none => return .void
    | some key =>
      if key.isTextual then return valueOf (← get) cell key
      else
        match key.position? with
        | some i => return ((← get).props cell).values[i]?.getD .void
        | none => return .void
  | getProp => do
    match args[0]? with
    | some key => return valueOf (← get) cell key
    | none => return .void
  | setProp => do
    match args[0]?, args[1]? with
    | some key, some value => bind cell key value
    | _, _ => pure ()
    return .void
  | deleteProp => do
    match args[0]? with
    | some key => writeKey cell key fun name entries => entries.erase name
    | none => pure ()
    return .void
  | getPropAt => do
    match positionArg? args with
    | some i => return (((← get).props cell).keys[i]?.map Value.symbol).getD .void
    | none => return .void
  | setAt => do
    match args[0]?, args[1]? with
    | some key, some value =>
      match key with
      | .int n =>
        if 1 ≤ n.toInt then modify (·.modifyProps cell (·.setIdx (n.toInt.toNat - 1) value))
        else pure ()
      | key => bind cell key value
    | _, _ => pure ()
    return .void
  | findPos => do
    match args[0]? with
    | some key =>
      let m ← get
      return (((m.props cell).findIdxFolded? (m.text key)).map fun i => .ofNat (i + 1)).getD .void
    | none => return .void
  | getOne => do
    match args[0]? with
    | some value =>
      let m ← get
      match (m.props cell).entries.find? fun e => m.same e.2 value with
      | some (key, _) => return .symbol key
      | none => return .int 0
    | none => return .int 0
  | getLast => return ((← get).props cell).values.getLast?.getD .void
  | duplicate => Memory.copy (.propList cell)

end PropListMethod

end Lingo
