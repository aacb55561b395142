/-!
# Faults

What ends a chain of calls. A handler that is not found is no fault: calling it
yields void.
-/

namespace Lingo

/-- Why a call failed. -/
inductive Fault where
  /-- `handler` was called with `depth` handlers active already. -/
  | callStackOverflow (handler : String) (depth : Nat)
  /-- An activation of `handler` came to the instruction at `offset` after
  `limit` others. -/
  | stepLimitExceeded (handler : String) (offset limit : Nat)
  | divisionByZero (handler : String) (offset : Nat)
  | moduloByZero (handler : String) (offset : Nat)
  /-- Raised by a function of the host. -/
  | script (message : String)
  deriving DecidableEq, Repr

def Fault.message : Fault → String
  | callStackOverflow handler depth =>
    s!"call stack overflow calling {handler} (max {depth} frames)"
  | stepLimitExceeded handler offset limit =>
    s!"step limit of {limit} instructions exceeded in {handler} at offset {offset}"
  | divisionByZero handler offset => s!"division by zero in {handler} at offset {offset}"
  | moduloByZero handler offset => s!"modulo by zero in {handler} at offset {offset}"
  | script message => message

end Lingo
