import Lingo.Proofs.Routine

/-!
# Operations on the running handler's frame

Routines say which parts of the frame of the running handler they may change, but
not where they go in its code: a jump may lead anywhere. An `Operation` is a
routine that changes the frame by edits alone (`Frame.Edit`), and these go only to
where an instruction starts, or to the end of the code.

What each edit keeps, then, all operations keep. That the instructions and what
they call are operations is proved in `Lingo.Proofs.Instruction` and
`Lingo.Proofs.Callee`.
-/

namespace Lingo

open Machine

/-! ## Edits -/

/-- What an instruction does to the frame of its handler at a time. -/
inductive Frame.Edit : Frame → Frame → Prop
  | push {f : Frame} (v : Value) : Edit f (f.push v)
  | pop {f : Frame} : Edit f f.pop.2
  | popMany {f : Frame} (n : Nat) : Edit f (f.popMany n).2
  | swap {f : Frame} : Edit f f.swap
  | discard {f : Frame} (n : Nat) : Edit f (f.discard n)
  /-- Jumps lead to an offset of the handler. -/
  | goto {f : Frame} {target : Int} {index : Nat} (h : f.indexAt? target = some index) :
    Edit f (f.goto index)
  | repeatFrom {f : Frame} {target : Int} {index : Nat} (h : f.indexAt? target = some index) :
    Edit f (f.repeatFrom index)
  | setParam {f : Frame} (i : Nat) (v : Value) : Edit f (f.setParam i v)
  | setLocal {f : Frame} (i : Nat) (v : Value) : Edit f (f.setLocal i v)
  | finish {f : Frame} (v : Value) : Edit f (f.finish v)
  | pushTell {f : Frame} (target : Value) : Edit f (f.pushTell target)
  | popTell {f : Frame} : Edit f f.popTell

/-- At most the running handler's frame differs, by one edit. The functions of the
host are the same. -/
structure Edited (m m' : Machine) : Prop where
  hosts : m'.hosts = m.hosts
  frames : m'.frames = m.frames ∨ ∃ top top' rest,
    m.frames = top :: rest ∧ m'.frames = top' :: rest ∧ top.Edit top'

namespace Edited

variable {m : Machine}

theorem refl (m : Machine) : Edited m m :=
  ⟨rfl, .inl rfl⟩

theorem onTop {g : Frame → Frame} (hg : ∀ top ∈ m.frames.head?, top.Edit (g top)) :
    Edited m (m.onTop g) := by
  unfold Machine.onTop
  split
  · exact .refl m
  · rename_i top rest frames
    exact ⟨rfl, .inr ⟨top, g top, rest, frames, rfl, hg top (by rw [frames]; rfl)⟩⟩

theorem pop (m : Machine) : Edited m (Machine.pop m).2 := by
  unfold Machine.pop
  rw [modifyGet_apply]
  split
  · exact .refl m
  · rename_i top rest frames
    exact ⟨rfl, .inr ⟨top, top.pop.2, rest, frames, rfl, .pop⟩⟩

theorem popMany (n : Nat) (m : Machine) : Edited m (Machine.popMany n m).2 := by
  unfold Machine.popMany
  rw [modifyGet_apply]
  split
  · exact .refl m
  · rename_i top rest frames
    exact ⟨rfl, .inr ⟨top, (top.popMany n).2, rest, frames, rfl, .popMany n⟩⟩

end Edited

/-! ## Operations -/

variable {α β : Type} {H : Hosting} {touch touch' call : Prop}

/-- What is a routine is one also where more may be touched. -/
theorem Routine.mono {a : Calls → Action α} (h : Routine H touch call a) (ht : touch → touch') :
    Routine H touch' call a := by
  induction h with
  | pure v => exact .pure v
  | bind _ _ iha ihf => exact .bind iha ihf
  | read blind _ ih => exact .read blind ih
  | work h keeps => exact .work (h.mono ht) keeps
  | write h cell key f => exact .write h cell key f
  | throw h fault => exact .throw h fault
  | fail h hosted fault => exact .fail h hosted fault
  | stop h => exact .stop h
  | activate h site args receiver => exact .activate h site args receiver
  | reenter h name args granted => exact .reenter h name args granted
  | contain h _ message ih => exact .contain h ih message

/-- Routines that change the running handler's frame by edits alone, and only if
`touch` holds. -/
inductive Operation (H : Hosting) (touch call : Prop) : {α : Type} → (Calls → Action α) → Prop
  /-- What leaves the frame alone. -/
  | aside {α : Type} {a : Calls → Action α} (h : Routine H False call a) : Operation H touch call a
  | edit {α : Type} {u : Update α} (ht : touch) (h : Routine H True call fun _ => sure u)
    (edits : ∀ m, Edited m (u m).2) : Operation H touch call fun _ => sure u
  | bind {α β : Type} {a : Calls → Action α} {f : Calls → α → Action β}
    (ha : Operation H touch call a) (hf : ∀ v, Operation H touch call fun c => f c v) :
    Operation H touch call fun c => a c >>= f c
  | read {α : Type} {f : Calls → Machine → Action α} (blind : Blind fun m c => f c m)
    (hf : ∀ m, m.hosts = H.functions → Operation H touch call fun c => f c m) :
    Operation H touch call fun c => get >>= f c

namespace Operation

theorem routine {a : Calls → Action α} (h : Operation H touch call a) : Routine H touch call a := by
  induction h with
  | aside h => exact h.mono False.elim
  | edit ht h => exact h.mono fun _ => ht
  | bind _ _ iha ihf => exact .bind iha ihf
  | read blind _ ih => exact .read blind ih

theorem pure (v : α) : Operation H touch call fun _ => pure v :=
  .aside (.pure v)

/-- Updates in a row. -/
theorem seq {u : Calls → Update α} {f : Calls → α → Update β}
    (hu : Operation H touch call fun c => sure (u c))
    (hf : ∀ v, Operation H touch call fun c => sure (f c v)) :
    Operation H touch call fun c => sure (u c >>= f c) :=
  .bind hu hf

/-- An update that reads the machine first. -/
theorem look {f : Calls → Machine → Update α} (blind : Blind fun m c => f c m)
    (hf : ∀ m, m.hosts = H.functions → Operation H touch call fun c => sure (f c m)) :
    Operation H touch call fun c => sure (get >>= f c) :=
  .read (blind.map fun f c => sure (f c)) hf

/-! ## What leaves the frame alone -/

theorem throw (h : ¬ call) (fault : Fault) :
    Operation H touch call fun _ => (throw fault : Action α) :=
  .aside (.throw h fault)

theorem reportShown (level : LogLevel) (target : LogTarget) {message : Memory → Option String}
    (ends : ∀ memory : Memory, memory.Founded → (message memory).isSome)
    (own : target ≠ .trace) (fields : List (String × String) := []) :
    Operation H touch call fun _ => sure (Machine.reportShown level target message fields) :=
  .aside (.reportShown level target ends own fields)

theorem report (level : LogLevel) (target : LogTarget) (message : String)
    (own : target ≠ .trace) (fields : List (String × String) := []) :
    Operation H touch call fun _ => sure (Machine.report level target message fields) :=
  .aside (.report level target message own fields)

theorem onMemory {f : Alloc α} (hf : Growing f) :
    Operation H touch call fun _ => sure (Machine.onMemory f) :=
  .aside (.onMemory hf)

theorem noteSet (kind : VariableKind) (name : String) (value : Value) :
    Operation H touch call fun _ => sure (Machine.noteSet kind name value) :=
  .aside (.noteSet kind name value)

theorem setGlobal (name : String) (value : Value) :
    Operation H touch call fun _ => sure (Machine.setGlobal name value) :=
  .aside (.setGlobal name value)

theorem setMovieProp (name : String) (value : Value) :
    Operation H touch call fun _ => sure (Machine.setMovieProp name value) :=
  .aside (.setMovieProp name value)

theorem setProp (id : ObjectId) (name : String) (value : Value) :
    Operation H touch call fun _ => sure (Machine.setProp id name value) :=
  .aside (.setProp id name value)

theorem setMemberProp (castLib member : Int32) (prop : String) (value : Value) :
    Operation H touch call fun _ => sure (Machine.setMemberProp castLib member prop value) :=
  .aside (.setMemberProp castLib member prop value)

/-! ## Edits of the frame -/

theorem change (ht : touch) {g : Frame → Frame} (hg : FrameChange g)
    (edits : ∀ {f : Frame}, f.Edit (g f)) :
    Operation H touch call fun _ => sure (modify (·.onTop g)) :=
  .edit ht (.onTop hg) fun _ => .onTop fun _ _ => edits

theorem onTop {g : Frame → Frame} (hg : FrameChange g) (edits : ∀ {f : Frame}, f.Edit (g f)) :
    Operation H True call fun _ => sure (modify (·.onTop g)) :=
  .change trivial hg edits

theorem push (v : Value) : Operation H True call fun _ => sure (Machine.push v) :=
  .onTop (.push v) (.push v)

theorem pop : Operation H True call fun _ => sure Machine.pop :=
  .edit trivial .pop .pop

theorem popMany (n : Nat) : Operation H True call fun _ => sure (Machine.popMany n) :=
  .edit trivial (.popMany n) (.popMany n)

end Operation

end Lingo
