import Lingo.Proofs.Callee

/-!
# Ways into a machine

An `Entry` is what a machine can be asked to do from outside: a call of a
handler, of a builtin function or of a method. Each is an operation that is given
the calls of the machine (`Entry.body_operation`, `Entry.perform_action`).
-/

namespace Lingo

open Machine
open Host (perform)

/-- What a machine is asked to do. -/
inductive Entry where
  | call (name : String) (args : Array Value)
  | callOn (name : String) (args : Array Value) (receiver : Value)
  | run (site : HandlerSite) (args : Array Value) (receiver? : Option Value)
  | runContained (site : HandlerSite) (args : Array Value) (receiver : Value)
  | callBuiltin (name : String) (args : Array Value)
  | callMethod (target : Value) (name : String) (args : Array Value)
  /-- Runs a handler as a call within a script does: a receiver is among the
  arguments already. -/
  | activate (site : HandlerSite) (args : Array Value) (receiver : Value)

namespace Entry

def action : Entry → Action Value
  | call name args => Host.call name args
  | callOn name args receiver => Host.callOn name args receiver
  | run site args receiver? => Host.run site args receiver?
  | runContained site args receiver => Host.runContained site args receiver
  | callBuiltin name args => Host.callBuiltin name args
  | callMethod target name args => Host.callMethod target name args
  | activate site args receiver => do (← get).calls.activate site args receiver

/-- The same, given the calls of the machine. -/
def body : Entry → Calls → Action Value
  | call name args, c => callHandler c name args
  | callOn name args receiver, c => callHandlerOn c name args receiver
  | run site args receiver?, c => execute c site args receiver?
  | runContained site args receiver, c => executeContained c site args receiver
  | callBuiltin name args, c => invoke c name args
  | callMethod target name args, c => Machine.callMethod c target name args
  | activate site args receiver, c => c.activate site args receiver

theorem perform_action (entry : Entry) (m : Machine) :
    perform entry.action m = perform (entry.body m.calls) m := by
  cases entry with
  | runContained site args receiver =>
    show perform (sure (Host.runContained site args receiver)) m = _
    rw [perform_sure, Host.runContained, get_bind_apply]
    rfl
  | _ => exact perform_get_bind _ m

theorem body_operation {H : Hosting} (granted : H.Open) (entry : Entry) :
    Operation H True True entry.body := by
  cases entry with
  | call name args => exact callHandler_operation (granted.serves name args) fun _ => trivial
  | callOn name args receiver => exact .aside (callHandlerOn_routine name args receiver)
  | run site args receiver? => exact .aside (execute_routine site args receiver?)
  | runContained site args receiver => exact .aside (executeContained_routine site args receiver)
  | callBuiltin name args => exact invoke_operation (granted.serves name args) fun _ => trivial
  | callMethod target name args =>
    exact callMethod_operation granted target name args fun _ => trivial
  | activate site args receiver => exact .aside (.activate trivial site args receiver)

theorem body_hosted {H : Hosting} (granted : H.Open) (entry : Entry) :
    Routine H True True entry.body :=
  (entry.body_operation granted).routine

theorem body_routine (entry : Entry) : Routine .none True True entry.body :=
  entry.body_hosted Hosting.none_open

end Entry

end Lingo
