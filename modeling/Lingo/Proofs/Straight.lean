import Lingo.Proofs.AncestorCall

/-!
# Straight-line code

Constants, reads and assignments of variables, sums, differences and products change the
memory, the globals, the texts of fields, and the operands and variables of the running
handler. All else of a machine stays, and so does the handler's place in its code:

* `Straight`: what such a change keeps;
* `Step.execute_straight`: each of these instructions is one, and none fails;
* `runFrame_straight`: a stretch of such code is run instruction by instruction to its end.
-/

namespace Lingo

open Machine
open Host (perform)

/-- Instructions that push a constant, read or assign a variable, or add, subtract or
multiply. -/
def Opcode.isStraight : Opcode → Bool
  | .pushZero | .pushInt8 | .pushInt16 | .pushInt32 | .pushFloat32 | .pushCons | .pushSymb
  | .pushVarRef | .pushChunkVarRef
  | .getGlobal | .getGlobal2 | .setGlobal | .setGlobal2 | .getParam | .setParam
  | .getLocal | .setLocal | .getProp | .setProp | .put
  | .add | .sub | .mul => true
  | _ => false

/-! ## What is kept -/

/-- The handler of a frame, its place in the code, and whether it has returned. -/
def Frame.place (f : Frame) : HandlerSite × Nat × Bool :=
  (f.site, f.cursor, f.returned)

/-- A machine with no more than its settings and libraries. -/
def Machine.base (m : Machine) : Machine :=
  { m with
    memory := {}, globals := {}, frames := [], log := [], events := []
    casts := m.casts.map fun casts => { libraries := casts.libraries } }

/-- The second machine differs from the first one by what straight-line code changes. -/
structure Straight (m m' : Machine) : Prop where
  base : m'.base = m.base
  place : m'.frames.head?.map Frame.place = m.frames.head?.map Frame.place
  below : m'.frames.tail = m.frames.tail
  recorded : m'.recorded = m.recorded

/-- What is read of the settings and libraries alone. -/
theorem of_same_base {γ : Type} {f : Machine → γ} (reads : ∀ m, f m.base = f m) {m m' : Machine}
    (same : m'.base = m.base) : f m' = f m := by
  rw [← reads m', same, reads]

/-- Handlers are found in the libraries. -/
theorem findHandler?_base (m : Machine) : m.base.findHandler? = m.findHandler? := by
  funext name
  rcases m with ⟨_, _, _, _, _, _, _ | casts⟩ <;> rfl

/-- A member property is set beside the libraries. -/
theorem CastLibraries.setMemberProp?_libraries {casts casts' : CastLibraries} {memory : Memory}
    {castLib member : Int32} {prop : String} {value : Value}
    (h : casts.setMemberProp? memory castLib member prop value = some casts') :
    casts'.libraries = casts.libraries := by
  unfold setMemberProp? at h
  dsimp only at h
  split at h
  · cases h
  · split at h <;> cases h <;> rfl

namespace Straight

variable {m m₁ m₂ : Machine}

theorem refl (m : Machine) : Straight m m :=
  ⟨rfl, rfl, rfl, rfl⟩

theorem trans (h : Straight m m₁) (h' : Straight m₁ m₂) : Straight m m₂ :=
  ⟨h'.base.trans h.base, h'.place.trans h.place, h'.below.trans h.below,
    h'.recorded.trans h.recorded⟩

/-- Where the frames stay as they are. -/
theorem of_base (base : m₁.base = m.base) (frames : m₁.frames = m.frames)
    (recorded : m₁.recorded = m.recorded) : Straight m m₁ :=
  ⟨base, by rw [frames], by rw [frames], recorded⟩

/-- Where only reports are made. -/
theorem of_noted (h : Noted [] m m₁) : Straight m m₁ := by
  obtain ⟨log, events, rfl, recorded⟩ := h
  exact .of_base rfl rfl recorded

/-- Where the running handler's frame changes but for its place. -/
theorem of_top {top top' : Frame} {outer : List Frame} (frames : m.frames = top :: outer)
    (place : top'.place = top.place) : Straight m { m with frames := top' :: outer } :=
  ⟨rfl, by rw [frames]; exact congrArg some place, by rw [frames]; rfl, rfl⟩

end Straight

/-! ## Updates -/

/-- The update makes no change but such ones. -/
def Machine.Modest {α : Type} (u : Update α) : Prop :=
  ∀ m, Straight m (u m).2

namespace Machine.Modest

variable {α β : Type}

theorem pure (v : α) : Modest (pure v : Update α) :=
  fun m => .refl m

theorem seq {u : Update α} {f : α → Update β} (hu : Modest u) (hf : ∀ v, Modest (f v)) :
    Modest (u >>= f) :=
  fun m => (hu m).trans (hf _ _)

theorem look {f : Machine → Update β} (h : ∀ m, Modest (f m)) : Modest (get >>= f) :=
  fun m => h m m

theorem onTop {f : Frame → Frame} (hf : ∀ frame, (f frame).place = frame.place) :
    Modest (modify (·.onTop f)) := by
  intro m
  show Straight m (m.onTop f)
  unfold Machine.onTop
  split
  · exact .refl m
  · rename_i frames
    exact .of_top frames (hf _)

theorem push (v : Value) : Modest (push v) :=
  onTop fun _ => rfl

theorem pop : Modest pop := by
  intro m
  unfold Machine.pop
  rw [modifyGet_apply]
  split
  · exact .refl m
  · rename_i top _ frames
    refine .of_top frames ?_
    unfold Frame.pop
    split <;> rfl

theorem onMemory (f : Alloc α) : Modest (onMemory f) :=
  fun _ => .of_base rfl rfl rfl

theorem reportShown (level : LogLevel) (target : LogTarget) (message : Memory → Option String)
    (fields : List (String × String)) : Modest (reportShown level target message fields) :=
  fun _ => .of_base rfl rfl rfl

theorem noteSet (kind : VariableKind) (name : String) (value : Value) :
    Modest (noteSet kind name value) :=
  fun m => .of_noted (notify_noted_nil (fun _ => rfl) _ _ m)

theorem setGlobal (name : String) (value : Value) : Modest (Machine.setGlobal name value) :=
  .seq (.noteSet _ _ _) fun _ _ => .of_base rfl rfl rfl

theorem setMemberProp (castLib member : Int32) (prop : String) (value : Value) :
    Modest (setMemberProp castLib member prop value) := by
  intro m
  unfold Machine.setMemberProp
  rw [modifyGet_apply]
  split
  · rename_i casts' set
    obtain ⟨casts, attached, set⟩ := Option.bind_eq_some_iff.mp set
    refine .of_base ?_ rfl rfl
    rw [Machine.base, Machine.base, attached, Option.map_some, Option.map_some,
      CastLibraries.setMemberProp?_libraries set]
  · exact .refl m

end Machine.Modest

/-! ## Instructions -/

namespace Step

theorem pushLiteral_modest (id : Int32) : Modest (pushLiteral id) :=
  .look fun _ => .push _

theorem pushSymbol_modest (id : Int32) : Modest (pushSymbol id) :=
  .look fun _ => .push _

theorem getGlobal_modest (id : Int32) : Modest (getGlobal id) :=
  .look fun _ => .push _

theorem setGlobal_modest (id : Int32) : Modest (setGlobal id) :=
  .seq .pop fun _ => .look fun _ => .setGlobal _ _

theorem setParam_modest (raw : Int32) (value : Value) : Modest (setParam raw value) := by
  refine .look fun m => ?_
  cases slot? m raw with
  | none => exact .reportShown _ _ _ _
  | some i => exact .seq (.noteSet _ _ _) fun _ => .onTop fun _ => rfl

theorem setLocal_modest (raw : Int32) (value : Value) : Modest (setLocal raw value) := by
  refine .look fun m => ?_
  cases slot? m raw with
  | none => exact .reportShown _ _ _ _
  | some i =>
    refine .look fun _ => .seq (.noteSet _ _ _) fun _ => .onTop fun frame => ?_
    unfold Frame.setLocal
    split <;> rfl

theorem getProp_modest (id : Int32) : Modest (getProp id) := by
  refine .look fun m => ?_
  cases m.receiver <;> exact .push _

theorem setProp_modest (id : Int32) : Modest (setProp id) := by
  refine .seq .pop fun value => .look fun m => ?_
  cases m.receiver with
  | object object => exact .seq (.noteSet _ _ _) fun _ => .onMemory _
  | _ => exact .pure ()

theorem setFieldText_modest (cast field value : Value) :
    Modest (setFieldText cast field value) := by
  refine .look fun _ => .seq (.noteSet _ _ _) fun _ => .look fun m => ?_
  have note (stored : Bool) (message : Memory → Option String) :
      Modest (if stored then Pure.pure () else Machine.reportShown .warn .vm message) := by
    cases stored with
    | true => exact .pure ()
    | false => exact .reportShown _ _ _ _
  cases m.casts with
  | none => exact .reportShown _ _ _ _
  | some casts =>
    dsimp only
    cases fieldMember? casts cast field with
    | none => exact .seq (.pure false) fun stored => note stored _
    | some _ => exact .seq (.setMemberProp _ _ _ _) fun stored => note stored _

theorem setVariable_modest (v : VariableRef) (value : Value) : Modest (setVariable v value) := by
  refine .look fun m => ?_
  cases v.kind with
  | global => exact .setGlobal _ _
  | property =>
    dsimp only
    cases m.receiver with
    | object object => exact .seq (.noteSet _ _ _) fun _ => .onMemory _
    | _ => exact .pure ()
  | param => exact setParam_modest _ _
  | localVar => exact setLocal_modest _ _
  | field => exact setFieldText_modest _ _ _

theorem popVariable_modest (code : Int32) : Modest (popVariable code) := by
  unfold popVariable
  split
  · exact .seq .pop fun _ => .seq .pop fun _ => .pure _
  · exact .seq .pop fun _ => .pure _
  · exact .seq .pop fun _ => .pure _

theorem put_modest (argument : Int32) : Modest (put argument) := by
  refine .seq (popVariable_modest _) fun target? => .seq .pop fun value => ?_
  cases target? with
  | none => exact .reportShown _ _ _ _
  | some target =>
    refine .look fun m => ?_
    dsimp only
    cases putMode argument <;> exact setVariable_modest _ _

theorem arithmetic_modest (op : ArithOp) : Modest (arithmetic op) :=
  .seq .pop fun _ => .seq .pop fun _ => .seq (.onMemory _) .push

/-- An instruction of straight-line code does not fail. -/
theorem execute_straight {i : Instruction} (straight : i.opcode.isStraight = true) (c : Calls) :
    ∃ u : Update Unit, execute c i = sure u ∧ Modest u := by
  unfold execute
  cases hi : i.opcode <;> simp only [hi, Opcode.isStraight, Bool.false_eq_true] at straight
  case pushZero | pushInt8 | pushInt16 | pushInt32 => exact ⟨_, rfl, .push _⟩
  case pushFloat32 | pushVarRef | pushChunkVarRef => exact ⟨_, rfl, .push _⟩
  case pushCons => exact ⟨_, rfl, pushLiteral_modest _⟩
  case pushSymb => exact ⟨_, rfl, pushSymbol_modest _⟩
  case add | sub | mul => exact ⟨_, rfl, arithmetic_modest _⟩
  case getGlobal | getGlobal2 => exact ⟨_, rfl, getGlobal_modest _⟩
  case setGlobal | setGlobal2 => exact ⟨_, rfl, setGlobal_modest _⟩
  case getParam => exact ⟨_, rfl, .look fun _ => .push _⟩
  case setParam =>
    exact ⟨pop >>= setParam i.argument, rfl, .seq .pop fun _ => setParam_modest _ _⟩
  case getLocal => exact ⟨_, rfl, .look fun _ => .push _⟩
  case setLocal =>
    exact ⟨pop >>= setLocal i.argument, rfl, .seq .pop fun _ => setLocal_modest _ _⟩
  case put => exact ⟨_, rfl, put_modest _⟩
  case getProp => exact ⟨_, rfl, getProp_modest _⟩
  case setProp => exact ⟨_, rfl, setProp_modest _⟩

end Step

/-! ## Running such code -/

section

variable {m m₁ m₂ : Machine} {site : HandlerSite} {n : Nat} {executed executed' : List Instruction}

/-- Instructions have been executed one after the other, without more changes than
straight-line code makes. A recording tracer was told of them, last one first. -/
structure Ran (m m₁ : Machine) (executed : List Instruction) : Prop where
  base : m₁.base = m.base
  place : m₁.frames.head?.map Frame.place =
    (m.frames.head?.map Frame.place).map fun (site, n, returned) =>
      (site, n + executed.length, returned)
  below : m₁.frames.tail = m.frames.tail
  recorded : m.tracer = some .record → m₁.recorded = executed.reverse ++ m.recorded

theorem Straight.ran (h : Straight m m₁) : Ran m m₁ [] :=
  ⟨h.base, h.place.trans Option.map_id'.symm, h.below, fun _ => h.recorded⟩

theorem Ran.trans (h : Ran m m₁ executed) (h' : Ran m₁ m₂ executed') :
    Ran m m₂ (executed ++ executed') where
  base := h'.base.trans h.base
  place := by
    rw [h'.place, h.place, Option.map_map]
    simp only [Function.comp_def, List.length_append, Nat.add_assoc]
  below := h'.below.trans h.below
  recorded recording := by
    have recording' : m₁.tracer = some .record :=
      (of_same_base (f := tracer) (fun _ => rfl) h.base).trans recording
    rw [h'.recorded recording', h.recorded recording, List.reverse_append, List.append_assoc]

/-- The machine is about to execute the instruction of the handler at a position. -/
structure Machine.At (m : Machine) (site : HandlerSite) (n : Nat) : Prop where
  running : m.stopped = false
  place : m.frames.head?.map Frame.place = some (site, n, false)

theorem Ran.at (h : Ran m m₁ executed) (here : m.At site n) :
    m₁.At site (n + executed.length) where
  running := (of_same_base (f := stopped) (fun _ => rfl) h.base).trans here.running
  place := by rw [h.place, here.place]; rfl

theorem Machine.At.top (here : m.At site n) :
    ∃ top outer, m.frames = top :: outer ∧ top.site = site ∧ top.cursor = n ∧
      top.returned = false := by
  obtain ⟨top, head, place⟩ := Option.map_eq_some_iff.mp here.place
  obtain ⟨outer, frames⟩ := List.head?_eq_some_iff.mp head
  simp only [Frame.place, Prod.mk.injEq] at place
  exact ⟨top, outer, frames, place⟩

/-- The instruction is fetched, and the handler goes on behind it. -/
theorem Machine.At.fetch (here : m.At site n) {i : Instruction}
    (current : site.handler.code.toList[n]? = some i) :
    ∃ top outer, m.frames = top :: outer ∧ top.site = site ∧ m.next? = some (top, i) ∧
      Ran m (Machine.fetch top i m).2 [i] ∧
      (Machine.fetch top i m).2.frames = top.advance :: outer ∧
      (Machine.fetch top i m).2.memory = m.memory := by
  obtain ⟨top, outer, frames, rfl, rfl, active⟩ := here.top
  have next : m.next? = some (top, i) :=
    next?_eq frames here.running active (Array.getElem?_toList.symm.trans current)
  refine ⟨top, outer, frames, rfl, next, ?_⟩
  obtain ⟨log, events, he, recorded⟩ := noteInstruction_noted top.cursor i top.stack
    { m with frames := top.advance :: outer }
  rw [fetch_eq frames, he]
  rw [he] at recorded
  refine ⟨⟨rfl, by rw [frames]; rfl, by rw [frames]; rfl, fun recording => ?_⟩, rfl, rfl⟩
  rw [if_pos recording] at recorded
  exact recorded

/-- A stretch of straight-line code, by induction on its instructions. -/
theorem runFrame_straight (c : Calls) (name : String) (limit : Nat) {code rest : List Instruction}
    (straight : ∀ i ∈ code, i.opcode.isStraight = true) (here : m.At site n)
    (ahead : site.handler.code.toList.drop n = code ++ rest) :
    ∃ m₁, Ran m m₁ code ∧ ∀ remaining,
      perform (runFrame c name limit (code.length + remaining)) m =
        perform (runFrame c name limit remaining) m₁ := by
  induction code generalizing m n with
  | nil => exact ⟨m, (Straight.refl m).ran, fun remaining => by rw [List.length_nil, Nat.zero_add]⟩
  | cons i code ih =>
    have current : site.handler.code.toList[n]? = some i := by
      rw [← List.head?_drop, ahead]
      rfl
    obtain ⟨top, _, -, -, next, fetched, -⟩ := here.fetch current
    obtain ⟨u, is, modest⟩ := Step.execute_straight (straight i List.mem_cons_self) c
    have one : Ran m (u (Machine.fetch top i m).2).2 [i] := fetched.trans (modest _).ran
    have executed : perform (Step.execute c i) (Machine.fetch top i m).2 =
        (.ok (u (Machine.fetch top i m).2).1, (u (Machine.fetch top i m).2).2) := by
      rw [is, perform_sure]
    have behind : site.handler.code.toList.drop (n + 1) = code ++ rest := by
      rw [← List.drop_drop, ahead]
      rfl
    obtain ⟨m₁, ran, goes⟩ := ih (fun j hj => straight j (List.mem_cons_of_mem i hj))
      (one.at here) behind
    refine ⟨m₁, one.trans ran, fun remaining => ?_⟩
    rw [List.length_cons, Nat.add_right_comm, runFrame_next next executed]
    exact goes remaining

end

end Lingo
