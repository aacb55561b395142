import Lingo.Proofs.Cells
import Lingo.Proofs.Operation

/-!
# Instructions that do not call

Every instruction other than a call is an operation on the frame of its handler
that neither activates handlers nor stops the machine (`execute_operation`). Only
division raises faults. The lemmas follow the instructions of `Lingo.Step` group
by group.
-/

namespace Lingo

/-- Whether an operation calls: it takes an argument list and may run handlers. -/
def Opcode.isCall : Opcode → Bool
  | .localCall | .extCall | .objCall | .objCallV4 | .tellCall | .newObj => true
  | _ => false

namespace Step

variable {H : Hosting} {call : Prop}

/-! ## Operands -/

theorem pushLiteral_operation (id : Int32) : Operation H True call fun _ => sure (pushLiteral id) :=
  .look rfl fun _ _ => .push _

theorem pushSymbol_operation (id : Int32) : Operation H True call fun _ => sure (pushSymbol id) :=
  .look rfl fun _ _ => .push _

theorem peek_operation (depth : Int32) : Operation H True call fun _ => sure (peek depth) :=
  .look rfl fun _ _ => .push _

theorem pushList_operation : Operation H True call fun _ => sure pushList :=
  .seq .pop fun _ => .look rfl fun _ _ => .seq (.onMemory (.newList _)) .push

theorem pushPropList_operation : Operation H True call fun _ => sure pushPropList :=
  .seq .pop fun _ => .look rfl fun _ _ => .seq (.onMemory (.newPropList _)) .push

theorem pushArgList_operation (count : Int32) (used : Bool) :
    Operation H True call fun _ => sure (pushArgList count used) := by
  refine .seq (.popMany _) fun _ => .seq (.onMemory ?_) .push
  cases used with
  | true => exact .newArgList _
  | false => exact .newArgListNoRet _

theorem arithmetic_operation (op : ArithOp) : Operation H True call fun _ => sure (arithmetic op) :=
  .seq .pop fun _ => .seq .pop fun _ => .seq (.onMemory (.combine _ _ _)) .push

theorem divide_operation (i : Instruction) : Operation H True False fun _ => divide i := by
  refine .bind .pop fun b => .bind .pop fun a => ?_
  cases a.quotient? b with
  | some v => exact .push v
  | none => exact .read rfl fun _ _ => .throw id _

theorem modulo_operation (i : Instruction) : Operation H True False fun _ => modulo i := by
  refine .bind .pop fun b => .bind .pop fun a => ?_
  cases a.remainder? b with
  | some v => exact .push v
  | none => exact .read rfl fun _ _ => .throw id _

theorem negate_operation : Operation H True call fun _ => sure negate :=
  .seq .pop fun _ => .seq (.onMemory (.negate _)) .push

theorem ordered_operation (accept : Ordering → Bool) :
    Operation H True call fun _ => sure (ordered accept) :=
  .seq .pop fun _ => .seq .pop fun _ => .push _

theorem equal_operation (negated : Bool) : Operation H True call fun _ => sure (equal negated) :=
  .seq .pop fun _ => .seq .pop fun _ => .look rfl fun _ _ => .push _

theorem logic_operation (op : Bool → Bool → Bool) : Operation H True call fun _ => sure (logic op) :=
  .seq .pop fun _ => .seq .pop fun _ => .push _

theorem not_operation : Operation H True call fun _ => sure Step.not :=
  .seq .pop fun _ => .push _

/-! ## Returns and jumps -/

theorem ret_operation : Operation H True call fun _ => sure ret :=
  .seq .pop fun v => .onTop (.finish v) (.finish v)

theorem reportLostJump_routine {touch : Prop} (i : Instruction) (target : Int) :
    Routine H touch call fun _ => sure (reportLostJump i target) :=
  .look rfl fun _ _ => .report _ _ _ (by decide)

theorem jump_routine (i : Instruction) (target : Int) :
    Routine H True call fun _ => sure (jump i target) := by
  refine .look rfl fun m _ => ?_
  cases jumpIndex? m target with
  | some index => exact .onTop (.goto index)
  | none => exact reportLostJump_routine i target

/-- An index that a jump leads to is one of the running handler's. -/
theorem indexAt?_of_jumpIndex? {m : Machine} {target : Int} {index : Nat}
    (h : jumpIndex? m target = some index) :
    ∀ top ∈ m.frames.head?, top.indexAt? target = some index := by
  rintro top ht
  rwa [jumpIndex?, Machine.top?, ht, Option.bind_some] at h

/-- A jump goes to where it leads, if it leads anywhere. -/
theorem jump_edited (i : Instruction) (target : Int) (m : Machine) :
    Edited m (jump i target m).2 := by
  rw [jump, get_bind_apply]
  cases h : jumpIndex? m target with
  | some index => exact .onTop fun top ht => .goto (indexAt?_of_jumpIndex? h top ht)
  | none => exact ⟨rfl, .inl rfl⟩

theorem jump_operation (i : Instruction) (target : Int) :
    Operation H True call fun _ => sure (jump i target) :=
  .edit trivial (jump_routine i target) (jump_edited i target)

theorem jumpIfFalse_operation (i : Instruction) :
    Operation H True call fun _ => sure (jumpIfFalse i) := by
  refine .seq .pop fun v => ?_
  split
  · exact .pure ()
  · exact jump_operation i _

theorem endRepeat_routine (i : Instruction) : Routine H True call fun _ => sure (endRepeat i) := by
  refine .look rfl fun m _ => ?_
  cases jumpIndex? m (i.offset - i.argument.toInt) with
  | some index => exact .onTop (.repeatFrom index)
  | none => exact jump_routine i _

theorem endRepeat_operation (i : Instruction) :
    Operation H True call fun _ => sure (endRepeat i) := by
  refine .edit trivial (endRepeat_routine i) fun m => ?_
  rw [endRepeat, get_bind_apply]
  cases h : jumpIndex? m (i.offset - i.argument.toInt) with
  | some index => exact .onTop fun top ht => .repeatFrom (indexAt?_of_jumpIndex? h top ht)
  | none => exact jump_edited i _ m

/-! ## Variables -/

theorem setParam_operation (raw : Int32) (value : Value) :
    Operation H True call fun _ => sure (setParam raw value) := by
  refine .look rfl fun m _ => ?_
  cases slot? m raw with
  | none => exact .report _ _ _ (by decide)
  | some i => exact .seq (.noteSet _ _ _) fun _ => .onTop (.setParam i value) (.setParam i value)

theorem setLocal_operation (raw : Int32) (value : Value) :
    Operation H True call fun _ => sure (setLocal raw value) := by
  refine .look rfl fun m _ => ?_
  cases slot? m raw with
  | none => exact .report _ _ _ (by decide)
  | some i =>
    exact .look rfl fun _ _ => .seq (.noteSet _ _ _) fun _ =>
      .onTop (.setLocal i value) (.setLocal i value)

theorem getGlobal_operation (id : Int32) : Operation H True call fun _ => sure (getGlobal id) :=
  .look rfl fun _ _ => .push _

theorem setGlobal_operation (id : Int32) : Operation H True call fun _ => sure (setGlobal id) :=
  .seq .pop fun _ => .look rfl fun _ _ => .setGlobal _ _

theorem setFieldText_operation (cast field value : Value) :
    Operation H True call fun _ => sure (setFieldText cast field value) := by
  refine .look rfl fun _ _ => .seq (.noteSet _ _ _) fun _ => .look rfl fun m _ => ?_
  have note : ∀ stored : Bool, Operation H True call fun _ => sure (if stored then pure () else
      Machine.reportShown .warn .vm fun memory =>
        (memory.display? field).map ("no field " ++ · ++ " to put text into")) := by
    rintro (_ | _)
    · exact .reportShown _ _ (fun _ founded => founded.line_isSome _ _) (by decide)
    · exact .pure ()
  cases m.casts with
  | none => exact .reportShown _ _ (fun _ founded => founded.line_isSome _ _) (by decide)
  | some casts =>
    dsimp only
    cases fieldMember? casts cast field with
    | some target => exact .seq (.setMemberProp _ _ _ _) note
    | none => exact note false

theorem popVariable_operation (code : Int32) :
    Operation H True call fun _ => sure (popVariable code) := by
  unfold popVariable
  split
  · exact .seq .pop fun _ => .seq .pop fun _ => .pure _
  · exact .seq .pop fun _ => .pure _
  · exact .seq .pop fun _ => .pure _

theorem setVariable_operation (v : VariableRef) (value : Value) :
    Operation H True call fun _ => sure (setVariable v value) := by
  refine .look rfl fun m _ => ?_
  cases v.kind with
  | global => exact .setGlobal _ _
  | property =>
    dsimp only
    split
    · exact .seq (.noteSet _ _ _) fun _ => .setProp _ _ _
    · exact .pure ()
  | param => exact setParam_operation _ _
  | localVar => exact setLocal_operation _ _
  | field => exact setFieldText_operation _ _ _

theorem put_operation (argument : Int32) : Operation H True call fun _ => sure (put argument) := by
  refine .seq (popVariable_operation _) fun target? => .seq .pop fun value => ?_
  cases target? with
  | none => exact .report _ _ _ (by decide)
  | some target =>
    refine .look rfl fun m _ => ?_
    cases putMode argument <;> exact setVariable_operation _ _

/-! ## Texts and chunks -/

theorem join_operation (separator : String) : Operation H True call fun _ => sure (join separator) :=
  .seq .pop fun _ => .seq .pop fun _ => .look rfl fun _ _ => .push _

theorem contains_operation : Operation H True call fun _ => sure contains :=
  .seq .pop fun _ => .seq .pop fun _ => .look rfl fun _ _ => .push _

theorem startsWith_operation : Operation H True call fun _ => sure startsWith :=
  .seq .pop fun _ => .seq .pop fun _ => .look rfl fun _ _ => .push _

theorem popLevel_operation (kind : ChunkKind) : Operation H True call fun _ => sure (popLevel kind) :=
  .seq .pop fun _ => .seq .pop fun _ => .pure _

theorem popChunk_operation : Operation H True call fun _ => sure popChunk :=
  .seq (popLevel_operation _) fun _ => .seq (popLevel_operation _) fun _ =>
    .seq (popLevel_operation _) fun _ => .seq (popLevel_operation _) fun _ => .pure _

theorem getChunk_operation : Operation H True call fun _ => sure getChunk :=
  .seq .pop fun _ => .seq popChunk_operation fun _ => .look rfl fun _ _ => .push _

theorem changeVariable_operation (target : VariableRef) (f : Char → List Char → List Char) :
    Operation H True call fun _ => sure (changeVariable target f) :=
  .look rfl fun _ _ => setVariable_operation _ _

theorem putChunk_operation (argument : Int32) :
    Operation H True call fun _ => sure (putChunk argument) := by
  refine .seq (popVariable_operation _) fun target? => .seq .pop fun value =>
    .seq popChunk_operation fun levels => ?_
  cases target? with
  | none => exact .report _ _ _ (by decide)
  | some target => exact .look rfl fun _ _ => changeVariable_operation _ _

theorem deleteChunk_operation (kind : Int32) :
    Operation H True call fun _ => sure (deleteChunk kind) := by
  refine .seq (popVariable_operation _) fun target? => .seq popChunk_operation fun levels => ?_
  cases target? with
  | none => exact .report _ _ _ (by decide)
  | some target => exact changeVariable_operation _ _

/-! ## Properties -/

theorem setProperty_operation (v : Value) (name : String) (value : Value) :
    Operation H True call fun _ => sure (setProperty v name value) := by
  unfold setProperty
  cases v with
  | castLib => exact .pure ()
  | member => exact .seq (.setMemberProp _ _ _ _) fun _ => .pure ()
  | object => exact .seq (.noteSet _ _ _) fun _ => .setProp _ _ _
  | movie => exact .setMovieProp _ _
  | propList | point | rect => exact .onMemory (.modify (fun _ => rfl) fun _ => rfl)
  | _ => exact .report _ _ _ (by decide)

theorem getProp_operation (id : Int32) : Operation H True call fun _ => sure (getProp id) := by
  refine .look rfl fun m _ => ?_
  split <;> exact .push _

theorem setProp_operation (id : Int32) : Operation H True call fun _ => sure (setProp id) := by
  refine .seq .pop fun value => .look rfl fun m _ => ?_
  split
  · exact .seq (.noteSet _ _ _) fun _ => .setProp _ _ _
  · exact .pure ()

theorem getMovieProp_operation (id : Int32) : Operation H True call fun _ => sure (getMovieProp id) :=
  .look rfl fun _ _ => .push _

theorem setMovieProp_operation (id : Int32) : Operation H True call fun _ => sure (setMovieProp id) :=
  .seq .pop fun _ => .look rfl fun _ _ => .setMovieProp _ _

theorem getObjProp_operation (id : Int32) : Operation H True call fun _ => sure (getObjProp id) :=
  .seq .pop fun _ => .look rfl fun _ _ => .push _

theorem setObjProp_operation (id : Int32) : Operation H True call fun _ => sure (setObjProp id) :=
  .seq .pop fun _ => .seq .pop fun _ => .look rfl fun _ _ => setProperty_operation _ _ _

theorem getChainedProp_operation (id : Int32) :
    Operation H True call fun _ => sure (getChainedProp id) := by
  refine .seq .pop fun v => .look rfl fun m _ => ?_
  dsimp only
  split
  · split <;> exact .push _
  · exact .push _

theorem getTopLevelProp_operation (id : Int32) :
    Operation H True call fun _ => sure (getTopLevelProp id) := by
  refine .look rfl fun m _ => ?_
  split
  · exact .push _
  · exact .push _
  · exact .seq (.report _ _ _ (by decide)) fun _ => .push _

theorem theBuiltin_operation (id : Int32) : Operation H True call fun _ => sure (theBuiltin id) :=
  .seq .pop fun _ => .look rfl fun _ _ => .push _

theorem getField_operation : Operation H True call fun _ => sure getField :=
  .seq .pop fun _ => .seq .pop fun _ => .look rfl fun _ _ => .push _

theorem getById_operation (family : Int32) : Operation H True call fun _ => sure (getById family) := by
  refine .seq .pop fun id => .look rfl fun m _ => ?_
  split
  · exact .look rfl fun _ _ => .push _
  split
  · refine .seq .pop fun v => .look rfl fun _ _ => ?_
    split <;> exact .push _
  split
  · refine .seq .pop fun v => .look rfl fun _ _ => ?_
    split <;> exact .push _
  split
  · exact .seq .pop fun _ => .push _
  split
  · exact .seq .pop fun _ => .look rfl fun _ _ => .push _
  · exact .seq (.report _ _ _ (by decide)) fun _ => .push _

theorem setById_operation (family : Int32) : Operation H True call fun _ => sure (setById family) := by
  refine .seq .pop fun id => .seq .pop fun value => ?_
  split
  · split
    · exact .setMovieProp _ _
    · exact .pure ()
  split
  · exact .seq .pop fun _ => .pure ()
  · exact .report _ _ _ (by decide)

theorem spritesOverlap_operation (op : Opcode) :
    Operation H True call fun _ => sure (spritesOverlap op) := by
  refine .seq .pop fun second => .seq .pop fun first =>
    .seq (.reportShown _ _ (fun memory founded => ?_) (by decide)) fun _ => .push _
  obtain ⟨shown, first⟩ := Option.isSome_iff_exists.mp (Memory.display?_isSome (founded first))
  obtain ⟨shown', second⟩ := Option.isSome_iff_exists.mp (Memory.display?_isSome (founded second))
  rw [first, second]
  rfl

/-! ## All of them -/

/-- An instruction that does not call changes the frame of its handler only,
does not stop the machine, and runs no handler. -/
theorem execute_operation {i : Instruction} (h : i.opcode.isCall = false) :
    Operation H True False fun c => execute c i := by
  unfold execute
  cases hi : i.opcode with
  | localCall | extCall | objCall | objCallV4 | tellCall | newObj => simp [hi, Opcode.isCall] at h
  | pushZero | pushInt8 | pushInt16 | pushInt32 | pushFloat32 => exact .push _
  | pushVarRef | pushChunkVarRef | callJavaScript => exact .push _
  | pushCons => exact pushLiteral_operation _
  | pushSymb => exact pushSymbol_operation _
  | swap => exact .onTop .swap .swap
  | pop => exact .onTop (.discard _) (.discard _)
  | peek => exact peek_operation _
  | add | sub | mul => exact arithmetic_operation _
  | div => exact divide_operation i
  | mod => exact modulo_operation i
  | inv => exact negate_operation
  | joinStr | joinPadStr => exact join_operation _
  | containsStr => exact contains_operation
  | contains0Str => exact startsWith_operation
  | getChunk => exact getChunk_operation
  | putChunk => exact putChunk_operation _
  | deleteChunk => exact deleteChunk_operation _
  | hiliteChunk => exact .pure ()
  | lt | ltEq | gt | gtEq => exact ordered_operation _
  | eq | ntEq => exact equal_operation _
  | and | or => exact logic_operation _
  | not => exact not_operation
  | ret => exact ret_operation
  | retFactory => exact .onTop (.finish .void) (.finish .void)
  | jmp => exact jump_operation i _
  | jmpIfZ => exact jumpIfFalse_operation i
  | endRepeat => exact endRepeat_operation i
  | getGlobal | getGlobal2 => exact getGlobal_operation _
  | setGlobal | setGlobal2 => exact setGlobal_operation _
  | getParam | getLocal => exact .read rfl fun _ _ => .push _
  | setParam => exact .bind .pop fun _ => setParam_operation _ _
  | setLocal => exact .bind .pop fun _ => setLocal_operation _ _
  | put => exact put_operation _
  | pushList => exact pushList_operation
  | pushPropList => exact pushPropList_operation
  | pushArgList | pushArgListNoRet => exact pushArgList_operation _ _
  | startTell => exact .seq .pop fun target => .onTop (.pushTell target) (.pushTell target)
  | endTell => exact .onTop .popTell .popTell
  | getProp => exact getProp_operation _
  | setProp => exact setProp_operation _
  | getMovieProp => exact getMovieProp_operation _
  | setMovieProp => exact setMovieProp_operation _
  | getObjProp => exact getObjProp_operation _
  | setObjProp => exact setObjProp_operation _
  | getChainedProp => exact getChainedProp_operation _
  | getTopLevelProp => exact getTopLevelProp_operation _
  | theBuiltin => exact theBuiltin_operation _
  | getField => exact getField_operation
  | getById => exact getById_operation _
  | setById => exact setById_operation _
  | ontoSpr | intoSpr => exact spritesOverlap_operation _
  | invalid => exact .read rfl fun _ _ => .report _ _ _ (by decide)

theorem execute_routine {i : Instruction} (h : i.opcode.isCall = false) :
    Routine H True False fun c => execute c i :=
  (execute_operation h).routine

end Step

end Lingo
