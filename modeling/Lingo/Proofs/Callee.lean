import Lingo.Proofs.Instruction

/-!
# What instructions call

Methods, builtin functions and handlers called by name are routines that may
activate handlers and stop the machine. None of them changes the frame of the
running handler but the builtin function `return`: `callBuiltin_operation` and
what is built on it ask for `touch` only where a call may come to `return`.

A call instruction does `callWith` of its `Step.callee` (`execute_call`), and
`Step.calledBuiltin?` is the builtin function that it comes to, if any. Where
that is `return` the callee sets the result of the running handler
(`callee_ret`); otherwise it is as good as a routine that touches no frame
(`callee_untouching`).
-/

namespace Lingo

open Host (perform)

variable {H : Hosting} {touch : Prop}

namespace Machine

/-! ## Running handlers -/

theorem execute_routine (site : HandlerSite) (args : Array Value) (receiver? : Option Value) :
    Routine H touch True fun c => execute c site args receiver? := by
  cases receiver? with
  | none => exact .activate trivial site args .void
  | some receiver => exact .activate trivial site _ receiver

theorem executeContained_routine (site : HandlerSite) (args : Array Value) (receiver : Value) :
    Routine H touch True fun c => sure (executeContained c site args receiver) :=
  .seq (.contain trivial (execute_routine site args (some receiver)) _) fun _ => .pure _

/-! ## Constructors -/

theorem instantiate_routine (ref : ScriptRef) (args : Array Value) :
    Routine H touch True fun c => instantiate c ref args := by
  refine .read rfl fun m _ => .bind (.onMemory (.newObject _)) fun id => .read rfl fun m _ => ?_
  cases m.findHandlerIn? ref "new" with
  | none => exact .pure _
  | some site => exact .bind (execute_routine _ _ _) fun _ => .pure _

theorem newObject_routine (args : Array Value) :
    Routine H touch True fun c => newObject c args := by
  unfold newObject
  split
  · exact instantiate_routine _ _
  · refine .bind (.onMemory (.cloneObject? _)) fun copy? => ?_
    cases copy? <;> exact .pure _
  · exact .bind (.report _ _ _ (by decide)) fun _ => .pure _

theorem callHost_routine {key : String} {f : HostFunction} (hf : H.functions.lookup key = some f)
    {args : Array Value} (granted : H.Grants key args) :
    Routine H touch True fun c => callHost c args f := by
  have hosted : H.functions ≠ [] := fun none => by
    rw [none] at hf
    cases hf
  cases f with
  | constant v => exact .pure v
  | collect => exact .onMemory (.newList _)
  | raise message => exact .fail trivial hosted _
  | forward name => exact .reenter trivial name args (granted name hf)
  | measure => exact .read rfl fun _ _ => .onMemory (.newList _)

theorem construct_routine {args : Array Value} (granted : H.Grants "new" args) :
    Routine H touch True fun c => construct c args := by
  refine .read rfl fun m hosts => ?_
  rw [hosts]
  cases hf : H.functions.lookup "new" with
  | some f => exact callHost_routine hf granted
  | none => exact newObject_routine args

end Machine

namespace ObjectMethod

open Machine

/-! ## Methods of objects -/

theorem assign_routine (id : ObjectId) (key value : Value) :
    Routine H touch True fun _ => sure (assign id key value) :=
  .look rfl fun _ _ => .setOwnProp _ _ _

theorem nestedContainer_routine (id : ObjectId) (prop : String) :
    Routine H touch True fun _ => sure (nestedContainer id prop) := by
  refine .look rfl fun m _ => ?_
  dsimp only
  split
  · exact .seq (.onMemory (.newPropList _)) fun _ => .seq (.setProp _ _ _) fun _ => .pure _
  · exact .pure _

theorem setNested_routine (id : ObjectId) (key sub value : Value) :
    Routine H touch True fun _ => sure (setNested id key sub value) := by
  refine .look rfl fun m _ => .seq (nestedContainer_routine _ _) fun held => ?_
  split
  · split
    · exact .onMemory (.modify (fun _ => rfl) fun _ => rfl)
    · exact .pure ()
  · exact .write trivial _ _ _
  · exact .report _ _ _ (by decide)

section

variable (new : ∀ ref, H.Grants "new" #[.script ref])

include new

theorem linkAncestors_routine (names : List Value) (first previous : Option ObjectId) :
    Routine H touch True fun c => sure (linkAncestors c names first previous) := by
  induction names generalizing first previous with
  | nil => exact .pure _
  | cons name rest ih =>
    refine .look rfl fun m _ => .look rfl fun m₁ _ => ?_
    cases m₁.scriptNamed? (m.memory.text name) with
    | none => exact .seq (.report _ _ _ (by decide)) fun _ => ih _ _
    | some ref =>
      refine .seq (.contain trivial (construct_routine (new ref)) _) fun created? => ?_
      split
      · exact .pure _
      · cases previous with
        | none => exact ih _ _
        | some id => exact .seq (.setOwnProp _ _ _) fun _ => ih _ _
      · exact .seq (.report _ _ _ (by decide)) fun _ => ih _ _

theorem buildAncestors_routine (id : ObjectId) (names : List Value) :
    Routine H touch True fun c => sure (buildAncestors c id names) := by
  refine .seq (linkAncestors_routine new _ _ _) fun first? => ?_
  split
  · exact .setOwnProp _ _ _
  · exact .pure ()

theorem run_routine (id : ObjectId) (args : Array Value) (method : ObjectMethod) :
    Routine H touch True fun c => sure (method.run c id args) := by
  cases method <;> simp only [run]
  case setAt | addProp =>
    split
    · exact .seq (assign_routine _ _ _) fun _ => .pure _
    · exact .pure _
  case setProp =>
    split
    · exact .seq (assign_routine _ _ _) fun _ => .pure _
    · exact .seq (setNested_routine _ _ _ _) fun _ => .pure _
    · exact .pure _
  case getAt =>
    split
    · exact .pure _
    · refine .look rfl fun m _ => ?_
      split
      · split <;> exact .pure _
      · exact .pure _
  case getaProp =>
    split
    · exact .look rfl fun _ _ => .pure _
    · exact .pure _
  case getProp =>
    split
    · exact .pure _
    · refine .look rfl fun m _ => ?_
      split <;> exact .pure _
  case deleteProp =>
    split
    · refine .look rfl fun _ _ => .seq (.modifyHeap fun heap => ?_) fun _ => .pure _
      apply Heap.Grows.modify
      exact fun _ => rfl
    · exact .pure _
  case count => exact .look rfl fun _ _ => .pure _
  case ilk => exact .pure _
  case addAt =>
    split
    · split
      · split
        · exact .look rfl fun _ _ => .seq (buildAncestors_routine new _ _) fun _ => .pure _
        · exact .pure _
      · exact .pure _
    · exact .pure _

end

end ObjectMethod

namespace Machine

theorem callObject_routine (new : ∀ ref, H.Grants "new" #[.script ref]) (id : ObjectId)
    (name : String) (args : Array Value) :
    Routine H touch True fun c => sure (callObject c id name args) := by
  unfold callObject
  cases ObjectMethod.table.find? name with
  | some method => exact ObjectMethod.run_routine new id args method
  | none =>
    refine .look rfl fun m _ => ?_
    cases m.findObjectHandler? id name with
    | some site => exact executeContained_routine _ _ _
    | none => exact .look rfl fun _ _ => .pure _

/-! ## Methods of containers and texts -/

theorem callList_routine (cell : Nat) (name : String) (args : Array Value) :
    Routine H touch True fun _ => sure (callList cell name args) := by
  unfold callList
  cases ListMethod.table.find? name with
  | some method => exact .look rfl fun _ _ => .onMemory (.listMethod _ _ _ _)
  | none => exact .pure _

theorem writeKey_routine (cell : Nat) (key : Value)
    (f : String → Bindings Value → Bindings Value) :
    Routine H touch True fun _ =>
      sure (onMemory do PropListMethod.writeKey cell key f; return Value.void) := by
  show Routine H touch True fun _ => sure (onMemory (PropListMethod.writeKey cell key f)) >>=
    fun _ => pure Value.void
  exact .bind (.write trivial cell key f) fun _ => .pure _

/-- Methods of property lists may write with a key. -/
theorem runPropList_routine (cell : Nat) (args : Array Value) (method : PropListMethod) :
    Routine H touch True fun _ => sure (onMemory (method.run cell args)) := by
  have acts := PropListMethod.run_acts cell args method
  generalize method.run cell args = f at acts ⊢
  cases acts with
  | look same => exact .onMemory fun m => .of_eq (by rw [same]) (by rw [same])
  | bind key value => exact writeKey_routine cell key _
  | erase key => exact writeKey_routine cell key _
  | setIdx i value =>
    exact .onMemory (.bind (.modify (fun _ => rfl) fun _ => rfl) fun _ => .pure _)
  | copy => exact .onMemory (.copy _)

theorem callPropList_routine (cell : Nat) (name : String) (args : Array Value) :
    Routine H touch True fun _ => sure (callPropList cell name args) := by
  unfold callPropList
  cases PropListMethod.table.find? name with
  | some method => exact runPropList_routine _ _ _
  | none => exact .pure _

theorem callText_routine (s name : String) (args : Array Value) :
    Routine H touch True fun _ => sure (callText s name args) := by
  unfold callText
  cases TextMethod.table.find? name with
  | some method => exact .look rfl fun _ _ => .pure _
  | none => exact .pure _

theorem callCollection_routine (name : String) {args : Array Value}
    (new : ∀ id, args[0]? = some (.object id) → ∀ ref, H.Grants "new" #[.script ref]) :
    Routine H touch True fun c => sure (callCollection c name args) := by
  unfold callCollection
  cases ha : args[0]? with
  | none => exact .pure _
  | some target =>
    have other : Routine H touch True fun _ => sure (do
        report .trace .vm (name ++ ": not a container: " ++ target.typeName)
        return Value.void) :=
      .seq (.report _ _ _ (by decide)) fun _ => .pure _
    dsimp only
    split
    · exact callList_routine _ _ _
    · exact callPropList_routine _ _ _
    · exact callText_routine _ _ _
    · exact callObject_routine (new _ ha) _ _ _
    · split
      · exact .look rfl fun _ _ => .pure _
      split
      · exact .pure _
      · exact other
    · split
      · exact .look rfl fun _ _ => .pure _
      split
      · exact .pure _
      · exact other
    · exact other

/-! ## Calls on objects -/

theorem callEach_routine (name : String) (args : Array Value) (ids : List ObjectId)
    (result : Value) : Routine H touch True fun c => sure (callEach c name args ids result) := by
  induction ids generalizing result with
  | nil => exact .pure _
  | cons id rest ih =>
    refine .look rfl fun m _ => ?_
    split
    · exact .pure _
    · cases m.findObjectHandler? id name with
      | some site => exact .seq (executeContained_routine _ _ _) ih
      | none => exact ih result

theorem callOn_routine (args : Array Value) :
    Routine H touch True fun c => sure (callOn c args) := by
  refine .look rfl fun m _ => ?_
  dsimp only
  split
  · split
    · exact executeContained_routine _ _ _
    · exact .pure _
  · exact callEach_routine _ _ _ _

theorem callAncestors_routine (name : String) (args : Array Value) (ids : List ObjectId)
    (result : Value) : Routine H touch True fun c => callAncestors c name args ids result := by
  induction ids generalizing result with
  | nil => exact .pure _
  | cons me rest ih =>
    refine .read rfl fun m _ => ?_
    cases m.memory.heap.ancestor? (m.runningLevel me) with
    | none => exact .bind (.report _ _ _ (by decide)) fun _ => ih result
    | some start =>
      dsimp only
      cases m.findObjectHandler? start name with
      | some site => exact .bind (execute_routine _ _ _) ih
      | none => exact ih result

/-! ## Builtin functions -/

/-- What is printed has an end where no value contains itself. -/
theorem joinedText?_isSome (args : Array Value) (memory : Memory) (founded : memory.Founded) :
    (joinedText? memory args).isSome :=
  Option.isSome_map.trans (Memory.mapM_isSome fun v _ => Memory.text?_isSome (founded v))

theorem stop_routine (word : String) : Routine H touch True fun _ => sure (stop word) :=
  .look rfl fun _ _ => .seq (.report _ _ _ (by decide)) fun _ =>
    .seq (.stop trivial) fun _ => .pure _

/-- Builtin functions other than `return` leave the running handler's frame
alone. -/
theorem callBuiltin_operation {args : Array Value}
    (new : ∀ id, args[0]? = some (.object id) → ∀ ref, H.Grants "new" #[.script ref]) (b : Builtin)
    (h : b = .ret → touch) : Operation H touch True fun c => callBuiltin c args b := by
  cases b with
  | compute f => exact .onMemory (.function _ _)
  | collection name => exact .aside (callCollection_routine _ new)
  | ret => exact .bind (.change (h rfl) (.finish _) (.finish _)) fun _ => .pure _
  | abort | halt => exact .aside (stop_routine _)
  | param =>
    refine .read rfl fun m _ => ?_
    cases m.top? <;> exact .pure _
  | pass => exact .bind (.aside .pass) fun _ => .pure _
  | call => exact .aside (callOn_routine _)
  | callAncestor => exact .read rfl fun _ _ => .aside (callAncestors_routine _ _ _ _)
  | new => exact .aside (newObject_routine _)
  | script | member | castLib => exact .read rfl fun _ _ => .pure _
  | put => exact .bind (.reportShown _ _ (joinedText?_isSome args) (by decide)) fun _ => .pure _
  | alert =>
    refine .bind (.reportShown _ _ (fun memory founded => ?_) (by decide)) fun _ => .pure _
    exact Option.isSome_map.trans (joinedText?_isSome args memory founded)

theorem invoke_operation {name : String} {args : Array Value} (serves : H.Serves name args)
    (h : Builtin.table.find? name = some .ret → touch) :
    Operation H touch True fun c => invoke c name args := by
  refine .read rfl fun m hosts => ?_
  rw [hosts]
  cases hf : H.functions.lookup (Text.asciiLower name) with
  | some f => exact .aside (callHost_routine hf serves.named)
  | none =>
    cases hb : Builtin.table.find? name with
    | some b => exact callBuiltin_operation serves.new b fun e => h (by rw [hb, e])
    | none => exact .pure _

/-! ## Calls by name -/

theorem callHandler_operation {name : String} {args : Array Value} (serves : H.Serves name args)
    (h : Builtin.table.find? name = some .ret → touch) :
    Operation H touch True fun c => callHandler c name args := by
  refine .read rfl fun m _ => ?_
  split
  · exact .pure _
  split
  · exact invoke_operation serves h
  · cases m.findHandler? name with
    | some site => exact .aside (execute_routine _ _ _)
    | none => exact .bind (.report _ _ _ (by decide)) fun _ => .pure _

theorem callHandler_routine {name : String} {args : Array Value} (serves : H.Serves name args)
    (h : Builtin.table.find? name = some .ret → touch) :
    Routine H touch True fun c => callHandler c name args :=
  (callHandler_operation serves h).routine

theorem callHandlerOn_routine (name : String) (args : Array Value) (receiver : Value) :
    Routine H touch True fun c => callHandlerOn c name args receiver := by
  refine .read rfl fun m _ => ?_
  split
  · exact .pure _
  · dsimp only
    split
    · exact execute_routine _ _ _
    · exact .pure _

theorem callMethod_operation (granted : H.Open) (target : Value) (name : String)
    (args : Array Value) (h : Builtin.table.find? name = some .ret → touch) :
    Operation H touch True fun c => callMethod c target name args := by
  have fallback : Operation H touch True fun c => (do
      if (← get).hasBuiltin name then invoke c name (#[target] ++ args) else return .void :
        Action Value) := by
    refine .read rfl fun m _ => ?_
    split
    · exact invoke_operation (granted.serves _ _) h
    · exact .pure _
  unfold callMethod
  dsimp only
  split
  · exact .aside (callList_routine _ _ _)
  · exact .aside (callPropList_routine _ _ _)
  · exact .aside (callText_routine _ _ _)
  · exact .aside (callObject_routine (fun _ => granted _ _) _ _ _)
  · split
    · exact .aside (construct_routine (granted _ _))
    · refine .read rfl fun m _ => ?_
      split
      · exact .aside (callHandlerOn_routine _ _ _)
      · exact fallback
  · split
    · exact .read rfl fun _ _ => .pure _
    · exact fallback
  · split
    · exact .read rfl fun _ _ => .pure _
    · exact fallback
  · exact fallback

theorem callMethod_routine (granted : H.Open) (target : Value) (name : String) (args : Array Value)
    (h : Builtin.table.find? name = some .ret → touch) :
    Routine H touch True fun c => callMethod c target name args :=
  (callMethod_operation granted target name args h).routine

end Machine

/-! ## Call instructions -/

namespace Step

open Machine

/-- What a call instruction calls with its arguments. -/
def callee (c : Calls) (i : Instruction) (args : Array Value) : Action Value :=
  match i.opcode with
  | .localCall => runLocal c i.argument args
  | .extCall => do callHandler c ((← get).name i.argument) args
  | .objCall | .objCallV4 => do
    callMethod c (argAt args 0) ((← get).name i.argument) (args.extract 1 args.size)
  | .tellCall => do
    let m ← get
    match toldTarget? m with
    | some target => callMethod c target (m.name i.argument) args
    | none => callHandler c (m.name i.argument) args
  | .newObj => do makeObject c ((← get).name i.argument) args
  | _ => return .void

theorem execute_call {i : Instruction} (h : i.opcode.isCall = true) (c : Calls) :
    execute c i = callWith (callee c i) := by
  unfold execute callee
  cases hi : i.opcode <;> simp only [hi, Opcode.isCall, Bool.false_eq_true] at h <;> rfl

theorem popArguments_operation {call : Prop} :
    Operation H True call fun _ => sure popArguments := by
  refine .seq .pop fun v => .look rfl fun m _ => ?_
  dsimp only
  split <;> exact .pure _

theorem pushResult_operation {call : Prop} (result : Value) (used : Bool) :
    Operation H True call fun _ => sure (pushResult result used) := by
  cases used
  · exact .pure ()
  · exact .push result

theorem runLocal_routine (position : Int32) (args : Array Value) :
    Routine H touch True fun c => runLocal c position args := by
  refine .read rfl fun m _ => ?_
  cases localHandler? m position with
  | none => exact .bind (.report _ _ _ (by decide)) fun _ => .pure _
  | some site => exact .activate trivial _ _ _

theorem makeObject_routine (granted : H.Open) (name : String) (args : Array Value) :
    Routine H touch True fun c => makeObject c name args := by
  refine .read rfl fun m _ => ?_
  cases m.scriptNamed? name with
  | some ref => exact construct_routine (granted _ _)
  | none => exact .bind (.report _ _ _ (by decide)) fun _ => .pure _

theorem callee_operation (granted : H.Open) (i : Instruction) (args : Array Value) :
    Operation H True True fun c => callee c i args := by
  unfold callee
  split
  · exact .aside (runLocal_routine _ _)
  · exact .read rfl fun _ _ => callHandler_operation (granted.serves _ _) fun _ => trivial
  · exact .read rfl fun _ _ => callMethod_operation granted _ _ _ fun _ => trivial
  · exact .read rfl fun _ _ => callMethod_operation granted _ _ _ fun _ => trivial
  · refine .read rfl fun m _ => ?_
    cases toldTarget? m with
    | some target => exact callMethod_operation granted _ _ _ fun _ => trivial
    | none => exact callHandler_operation (granted.serves _ _) fun _ => trivial
  · exact .read rfl fun _ _ => .aside (makeObject_routine granted _ _)
  · exact .pure _

/-- A call instruction as a whole. -/
theorem execute_call_operation (granted : H.Open) {i : Instruction} (h : i.opcode.isCall = true) :
    Operation H True True fun c => execute c i := by
  simp only [execute_call h]
  exact .bind popArguments_operation fun _ =>
    .bind (callee_operation granted i _) fun _ => pushResult_operation _ _

theorem execute_call_routine (granted : H.Open) {i : Instruction} (h : i.opcode.isCall = true) :
    Routine H True True fun c => execute c i :=
  (execute_call_operation granted h).routine

/-! ## Which builtin function a call comes to -/

/-- The builtin function that a call by name comes to. A stopped machine calls
nothing. -/
def namedBuiltin? (m : Machine) (name : String) : Option Builtin :=
  if m.stopped then none else Builtin.table.find? name

/-- The builtin function that a method call comes to: values with methods of
their own have no others, and a handler of a script comes first. -/
def methodBuiltin? (m : Machine) (target : Value) (name : String) : Option Builtin :=
  match target with
  | .list _ | .propList _ | .text _ | .object _ => none
  | .script ref =>
    if Text.sameName name "new" then some .new
    else if (m.findHandlerIn? ref name).isSome then none
    else Builtin.table.find? name
  | .point _ | .rect _ =>
    if Text.sameName name "getAt" then none else Builtin.table.find? name
  | _ => Builtin.table.find? name

/-- The builtin function that a call instruction comes to. -/
def calledBuiltin? (m : Machine) (i : Instruction) (args : Array Value) : Option Builtin :=
  match i.opcode with
  | .extCall => namedBuiltin? m (m.name i.argument)
  | .objCall | .objCallV4 => methodBuiltin? m (argAt args 0) (m.name i.argument)
  | .tellCall =>
    match toldTarget? m with
    | some target => methodBuiltin? m target (m.name i.argument)
    | none => namedBuiltin? m (m.name i.argument)
  | .newObj => (m.scriptNamed? (m.name i.argument)).map fun _ => .new
  | _ => none

/-- From the machine `m`, the action does what some routine does that touches no
frame. -/
def Untouching (m : Machine) (a : Calls → Action Value) : Prop :=
  ∃ a', Routine .none False True a' ∧ ∀ c, perform (a c) m = perform (a' c) m

theorem Untouching.of_routine {a : Calls → Action Value} (h : Routine .none False True a) (m : Machine) :
    Untouching m a :=
  ⟨a, h, fun _ => rfl⟩

variable {m : Machine}

theorem Untouching.read {f : Calls → Machine → Action Value} (h : Untouching m fun c => f c m) :
    Untouching m fun c => get >>= f c :=
  h

theorem callHandler_untouching {name : String} (h : namedBuiltin? m name ≠ some .ret)
    (args : Array Value) : Untouching m fun c => callHandler c name args := by
  by_cases hs : m.stopped = true
  · exact ⟨fun _ => pure .void, .pure _, fun c => by simp [callHandler, hs]⟩
  · refine .of_routine (callHandler_routine (Hosting.none_open.serves _ _) fun hb => h ?_) m
    simpa [namedBuiltin?, hs] using hb

theorem callMethod_untouching {target : Value} {name : String}
    (h : methodBuiltin? m target name ≠ some .ret) (args : Array Value) :
    Untouching m fun c => callMethod c target name args := by
  cases target with
  | list cell => exact .of_routine (callList_routine cell name args) m
  | propList cell => exact .of_routine (callPropList_routine cell name args) m
  | text s => exact .of_routine (callText_routine s name args) m
  | object id => exact .of_routine (callObject_routine (fun _ => Hosting.none_open _ _) id name args) m
  | script ref =>
    by_cases hn : Text.sameName name "new" = true
    · exact ⟨_, construct_routine (Hosting.none_open _ (#[.script ref] ++ args)), fun c => by simp [callMethod, hn]⟩
    by_cases hf : (m.findHandlerIn? ref name).isSome = true
    · exact ⟨_, callHandlerOn_routine name args (.script ref), fun c => by
        simp [callMethod, hn, hf]⟩
    · refine .of_routine (callMethod_routine Hosting.none_open _ name args fun hb => h ?_) m
      simpa [methodBuiltin?, hn, hf] using hb
  | point cell | rect cell =>
    by_cases hg : Text.sameName name "getAt" = true
    · refine .of_routine ?_ m
      simp only [callMethod, hg, if_true]
      exact .read rfl fun _ _ => .pure _
    · refine .of_routine (callMethod_routine Hosting.none_open _ name args fun hb => h ?_) m
      simpa [methodBuiltin?, hg] using hb
  | _ => exact .of_routine (callMethod_routine Hosting.none_open _ name args h) m

theorem callee_untouching {i : Instruction} {args : Array Value}
    (h : calledBuiltin? m i args ≠ some .ret) : Untouching m fun c => callee c i args := by
  unfold calledBuiltin? at h
  unfold callee
  cases hi : i.opcode <;> simp only [hi] at h ⊢
  case localCall => exact .of_routine (runLocal_routine _ _) m
  case extCall => exact .read (callHandler_untouching h args)
  case objCall | objCallV4 => exact .read (callMethod_untouching h _)
  case tellCall =>
    refine .read ?_
    cases ht : toldTarget? m with
    | some target => exact callMethod_untouching (by simpa only [ht] using h) args
    | none => exact callHandler_untouching (by simpa only [ht] using h) args
  case newObj =>
    refine .of_routine ?_ m
    exact .read rfl fun _ _ => makeObject_routine Hosting.none_open _ _
  all_goals exact .of_routine (.pure _) m

/-! ## The builtin function `return` -/

theorem invoke_ret (hosts : m.hosts = []) {name : String}
    (h : Builtin.table.find? name = some .ret) (c : Calls) (args : Array Value) :
    perform (invoke c name args) m = (.ok (argAt args 0), m.onTop (·.finish (argAt args 0))) := by
  simp only [invoke, perform_get_bind, hosts, h, List.lookup_nil]
  rfl

theorem callHandler_ret (hosts : m.hosts = []) {name : String}
    (h : namedBuiltin? m name = some .ret) (c : Calls) (args : Array Value) :
    perform (callHandler c name args) m =
      (.ok (argAt args 0), m.onTop (·.finish (argAt args 0))) := by
  unfold namedBuiltin? at h
  split at h
  · cases h
  · rename_i hs
    simp [callHandler, hs, hasBuiltin, h, invoke_ret hosts h]

theorem argAt_append (target : Value) (args : Array Value) :
    argAt (#[target] ++ args) 0 = target := by
  rw [argAt, Array.getElem?_append_left (Nat.zero_lt_one)]
  rfl

theorem callMethod_ret (hosts : m.hosts = []) {target : Value} {name : String}
    (h : methodBuiltin? m target name = some .ret) (c : Calls) (args : Array Value) :
    perform (callMethod c target name args) m = (.ok target, m.onTop (·.finish target)) := by
  have fallback (hb : Builtin.table.find? name = some .ret) :
      perform (do
        if (← get).hasBuiltin name then invoke c name (#[target] ++ args) else return .void) m =
        (.ok target, m.onTop (·.finish target)) := by
    simp [hasBuiltin, hb, invoke_ret hosts hb, argAt_append]
  unfold methodBuiltin? at h
  cases target with
  | list | propList | text | object => cases h
  | script ref =>
    dsimp only at h
    split at h
    · cases h
    split at h
    · cases h
    · rename_i hn hf
      simpa [callMethod, hn, hf] using fallback h
  | point | rect =>
    dsimp only at h
    split at h
    · cases h
    · rename_i hg
      simpa [callMethod, hg] using fallback h
  | _ => exact fallback h

theorem callee_ret (hosts : m.hosts = []) {i : Instruction} {args : Array Value}
    (h : calledBuiltin? m i args = some .ret) :
    ∃ v, ∀ c, perform (callee c i args) m = (.ok v, m.onTop (·.finish v)) := by
  unfold calledBuiltin? at h
  unfold callee
  cases hi : i.opcode <;> simp only [hi, reduceCtorEq] at h ⊢
  case extCall =>
    exact ⟨_, fun c => (perform_get_bind _ m).trans (callHandler_ret hosts h c args)⟩
  case objCall | objCallV4 =>
    exact ⟨_, fun c => (perform_get_bind _ m).trans (callMethod_ret hosts h c _)⟩
  case tellCall =>
    cases ht : toldTarget? m with
    | some target =>
      rw [ht] at h
      refine ⟨target, fun c => (perform_get_bind _ m).trans ?_⟩
      rw [ht]
      exact callMethod_ret hosts h c args
    | none =>
      rw [ht] at h
      refine ⟨argAt args 0, fun c => (perform_get_bind _ m).trans ?_⟩
      rw [ht]
      exact callHandler_ret hosts h c args
  case newObj => simp at h

end Step

end Lingo
