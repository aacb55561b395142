import Lingo.Proofs.Parts
import Lingo.Proofs.Places

/-!
# Chunks of variables

A chunk expression on the operand stack with one level in use selects a part of a text.
The instruction that gets a chunk takes it from a value, the one that puts a chunk from a
variable; both select the same part of the same text.

* `chunkSpans_ordered`, `exists_selection`: what a request selects is a part of the text,
  with something before and something behind it, for reading and for writing;
* `getChunk_withStack`, `putChunk_withStack`: the two instructions, for any operands;
* `chunk_of_variable`: what each of them does with the part that is selected.
-/

namespace Lingo

open Machine
open Host (perform)

/-! ## Selected parts -/

/-- Stretches from left to right. -/
structure Ordered (spans : List Span) : Prop where
  apart : spans.Pairwise fun x y => x.stop ≤ y.start
  forward : ∀ x ∈ spans, x.start ≤ x.stop

section

variable {spans spans' : List Span} {cs : List Char} {kind : ChunkKind} {c : Char}

theorem Ordered.sublist (h : Ordered spans) (sub : List.Sublist spans' spans) : Ordered spans' :=
  ⟨h.apart.sublist sub, fun x hx => h.forward x (sub.subset hx)⟩

/-- From one stretch to a later one. -/
theorem Ordered.through (h : Ordered spans) {a b : Nat} {x y : Span} (le : a ≤ b)
    (hx : spans[a]? = some x) (hy : spans[b]? = some y) : x.start ≤ y.stop := by
  have hxs := h.forward x (List.mem_of_getElem? hx)
  have hys := h.forward y (List.mem_of_getElem? hy)
  obtain ⟨ha, rfl⟩ := List.getElem?_eq_some_iff.mp hx
  obtain ⟨hb, rfl⟩ := List.getElem?_eq_some_iff.mp hy
  rcases Nat.lt_or_eq_of_le le with less | rfl
  · exact hxs.trans ((List.pairwise_iff_getElem.mp h.apart a b ha hb less).trans hys)
  · exact hxs

theorem layOut_ordered (gap start : Nat) (pieces : List (List Char)) :
    Ordered (layOut gap start pieces) ∧ ∀ x ∈ layOut gap start pieces, start ≤ x.start := by
  induction pieces generalizing start with
  | nil => exact ⟨⟨.nil, nofun⟩, nofun⟩
  | cons piece pieces ih =>
    obtain ⟨later, behind⟩ := ih (start + piece.length + gap)
    rw [layOut]
    have behind : ∀ x ∈ layOut gap (start + piece.length + gap) pieces,
        start + piece.length ≤ x.start := fun x hx => (Nat.le_add_right _ gap).trans (behind x hx)
    refine ⟨⟨List.pairwise_cons.mpr ⟨behind, later.apart⟩, ?forward⟩, ?start⟩
    case forward =>
      exact List.forall_mem_cons.mpr ⟨Nat.le_add_right _ _, later.forward⟩
    case start =>
      exact List.forall_mem_cons.mpr
        ⟨Nat.le_refl _, fun x hx => (Nat.le_add_right _ _).trans (behind x hx)⟩

theorem splitSpans_ordered {delimiter : List Char} (hd : delimiter ≠ []) (cs : List Char) :
    Ordered (splitSpans delimiter 0 0 0 cs) := by
  obtain ⟨pieces, split⟩ := exists_splits hd cs
  rw [split.spans hd 0]
  exact (layOut_ordered _ 0 pieces).1

theorem dropEmptyLast_sublist (spans : List Span) :
    List.Sublist (dropEmptyLast spans) spans := by
  rw [dropEmptyLast]
  cases spans.getLast? with
  | none => exact List.Sublist.refl spans
  | some last =>
    dsimp only
    split
    · exact List.dropLast_sublist spans
    · exact List.Sublist.refl spans

/-- Chunks stand from left to right. -/
theorem chunkSpans_ordered (cs : List Char) (kind : ChunkKind) (c : Char) :
    Ordered (chunkSpans cs kind c) := by
  cases cs with
  | nil => exact ⟨.nil, nofun⟩
  | cons d cs =>
    rw [chunkSpans_cons]
    cases kind with
    | item => exact splitSpans_ordered (List.cons_ne_nil c []) _
    | word =>
      refine ⟨(wordSpans_ordered none 0 (d :: cs) (Nat.le_refl 0)).1.imp Nat.le_of_lt, ?_⟩
      exact fun x hx => Nat.le_of_lt ((mem_wordSpans _ x).mp hx).nonempty
    | char =>
      refine ⟨List.pairwise_map.mpr (List.pairwise_lt_range.imp fun less => less), ?_⟩
      rintro x hx
      obtain ⟨i, -, rfl⟩ := List.mem_map.mp hx
      exact Nat.le_succ i
    | line =>
      exact (splitSpans_ordered (lineDelimiter_ne_nil (d :: cs)) (d :: cs)).sublist
        (dropEmptyLast_sublist _)

end

/-- A text with a value put into, before or after a part of it. -/
def PutMode.splice (mode : PutMode) (before chunk behind value : String) : String :=
  match mode with
  | .into => before ++ value ++ behind
  | .before => before ++ value ++ chunk ++ behind
  | .after => before ++ chunk ++ value ++ behind

theorem take_eq_append_slice (cs : List Char) {span : Span} (le : span.start ≤ span.stop) :
    cs.take span.stop = cs.take span.start ++ span.slice cs := by
  have front : (cs.take span.stop).take span.start = cs.take span.start := by
    rw [List.take_take, min_eq_left le]
  rw [Span.slice, ← front, List.take_append_drop]

theorem drop_eq_slice_append (cs : List Char) {span : Span} (le : span.start ≤ span.stop) :
    cs.drop span.start = span.slice cs ++ cs.drop span.stop := by
  have back : (cs.drop span.start).drop (span.stop - span.start) = cs.drop span.stop := by
    rw [List.drop_drop, Nat.add_sub_cancel' le]
  rw [Span.slice, List.drop_take, ← back, List.take_append_drop]

/-- A request that selects chunks of a text selects a part of it, in which reads and writes
agree. -/
theorem exists_selection {text : String} {kind : ChunkKind} {c : Char} {first last : Int32}
    (selects : (chunkRange (chunkCount text.toList kind c) first last).isSome) :
    ∃ before chunk behind, text = before ++ chunk ++ behind ∧
      String.ofList (chunkText text.toList kind first last c) = chunk ∧
      ∀ mode value, String.ofList
        (putChunk text.toList kind first last mode value.toList c) =
          PutMode.splice mode before chunk behind value := by
  obtain ⟨span, selected, le⟩ : ∃ span,
      chunkSpan? (chunkSpans text.toList kind c) first last = some span ∧
        span.start ≤ span.stop := by
    obtain ⟨⟨a, b⟩, range⟩ := Option.isSome_iff_exists.mp selects
    obtain ⟨x, y, hx, hy⟩ := exists_ends range
    have le := (chunkSpans_ordered text.toList kind c).through (chunkRange_bounds range).1 hx hy
    exact ⟨x.through y, chunkSpan?_some range hx hy, le⟩
  have front := take_eq_append_slice text.toList le
  have back := drop_eq_slice_append text.toList le
  refine ⟨.ofList (text.toList.take span.start), .ofList (span.slice text.toList),
    .ofList (text.toList.drop span.stop), ?split, ?get, fun mode value => ?put⟩
  case split =>
    rw [← String.ofList_append, ← String.ofList_append, ← front, List.take_append_drop,
      String.ofList_toList]
  case get => rw [chunkText_eq, selected]
  case put =>
    unfold Lingo.putChunk
    dsimp only
    rw [selected]
    cases mode with
    | into =>
      simp only [PutMode.splice, String.ofList_append, String.ofList_toList]
    | after =>
      simp only [PutMode.splice, front, String.ofList_append, String.ofList_toList]
    | before =>
      simp only [PutMode.splice, back, String.ofList_append, String.ofList_toList,
        String.append_assoc]

/-! ## Operands -/

/-- The operands of a chunk expression, the topmost first: for each kind of chunk, a first
and a last position. -/
def chunkOperands (range : ChunkKind → Value × Value) : List Value :=
  [.line, .item, .word, .char].flatMap fun kind => [(range kind).2, (range kind).1]

/-- The level that the operands for a kind of chunk stand for. -/
def chunkLevel (range : ChunkKind → Value × Value) (kind : ChunkKind) : Step.ChunkLevel :=
  ⟨kind, (range kind).1.toInt32, (range kind).2.toInt32⟩

/-- The levels in use, outermost first. -/
def chunkLevels (range : ChunkKind → Value × Value) : List Step.ChunkLevel :=
  ([.line, .item, .word, .char].map (chunkLevel range)).filter Step.ChunkLevel.used

section

variable {m : Machine} (running : m.frames ≠ []) {range : ChunkKind → Value × Value}
  {kind : ChunkKind} {stack : List Value}

include running

theorem popLevel_bind_withStack {α : Type} (f : Step.ChunkLevel → Update α) (kind : ChunkKind)
    (first last : Value) (stack : List Value) :
    (Step.popLevel kind >>= f) (m.withStack (last :: first :: stack)) =
      f ⟨kind, first.toInt32, last.toInt32⟩ (m.withStack stack) := by
  rw [update_bind_apply, Step.popLevel, pop_bind_withStack running, pop_bind_withStack running]
  rfl

theorem popChunk_withStack (range : ChunkKind → Value × Value) (stack : List Value) :
    Step.popChunk (m.withStack (chunkOperands range ++ stack)) =
      (chunkLevels range, m.withStack stack) := by
  show Step.popChunk (m.withStack (_ :: _ :: _ :: _ :: _ :: _ :: _ :: _ :: stack)) = _
  rw [Step.popChunk, popLevel_bind_withStack running, popLevel_bind_withStack running,
    popLevel_bind_withStack running, popLevel_bind_withStack running]
  rfl

/-- The instruction that gets a chunk takes a value and the operands of a chunk expression,
and pushes the text to which the levels narrow that of the value. -/
theorem getChunk_withStack (v : Value) (range : ChunkKind → Value × Value) (stack : List Value) :
    Step.getChunk (m.withStack (v :: (chunkOperands range ++ stack))) =
      ((), m.withStack (.text (String.ofList (Step.narrow m.config.itemDelimiter
        (m.memory.text v).toList (chunkLevels range))) :: stack)) := by
  rw [Step.getChunk, pop_bind_withStack running, update_bind_apply, popChunk_withStack running,
    get_bind_apply, push_withStack running]
  rfl

theorem popVariable_bind_withStack {α : Type} (f : Option Step.VariableRef → Update α)
    {code : Int32} {scope : VariableKind} (is : Step.variableKind? code = some scope)
    (ne : scope ≠ .field) (id : Value) (stack : List Value) :
    (Step.popVariable code >>= f) (m.withStack (id :: stack)) =
      f (some ⟨scope, id, .void⟩) (m.withStack stack) := by
  have popped (ref : Value → Step.VariableRef) :
      (do return some (ref (← pop)) : Update (Option Step.VariableRef))
          (m.withStack (id :: stack)) = (some (ref id), m.withStack stack) :=
    pop_bind_withStack running _ id stack
  rw [update_bind_apply, Step.popVariable, is]
  cases scope with
  | field => exact absurd rfl ne
  | _ =>
    dsimp only
    rw [popped]

/-- The instruction that puts a chunk takes what addresses a variable, a value and the operands
of a chunk expression, and assigns to the variable the text that it has with the value put
to the outermost level. -/
theorem putChunk_withStack {argument : Int32} {scope : VariableKind}
    (is : Step.variableKind? (argument &&& 0xF) = some scope) (ne : scope ≠ .field)
    (id value : Value) (range : ChunkKind → Value × Value) (stack : List Value) :
    Step.putChunk argument (m.withStack (id :: value :: (chunkOperands range ++ stack))) =
      let current := m.memory.text (Step.variableValue (m.withStack stack) ⟨scope, id, .void⟩)
      let level := Step.outermost (chunkLevels range)
      Step.setVariable ⟨scope, id, .void⟩ (.text (String.ofList
        (Lingo.putChunk current.toList level.kind level.first level.last (Step.putMode argument)
          (m.memory.text value).toList m.config.itemDelimiter))) (m.withStack stack) := by
  rw [Step.putChunk]
  dsimp only
  rw [popVariable_bind_withStack running _ is ne, pop_bind_withStack running, update_bind_apply,
    popChunk_withStack running]
  dsimp only
  rw [get_bind_apply, Step.changeVariable, get_bind_apply]
  rfl

end

/-- With one level in use, it is the level of the expression. -/
theorem chunkLevels_of_only {range : ChunkKind → Value × Value} {kind : ChunkKind}
    (only : ∀ k, (chunkLevel range k).used = true ↔ k = kind) :
    chunkLevels range = [chunkLevel range kind] := by
  have used : Step.ChunkLevel.used ∘ chunkLevel range = fun k => decide (k = kind) := by
    funext k
    exact Bool.eq_iff_iff.mpr ((only k).trans decide_eq_true_iff.symm)
  rw [chunkLevels, List.filter_map, used]
  cases kind <;> rfl

/-! ## Places and operands -/

namespace Machine

variable {m m' : Machine} {place : Place} {value : Value} {stack : List Value}

@[simp] theorem contents?_withStack (m : Machine) (stack : List Value) (place : Place) :
    (m.withStack stack).contents? place = m.contents? place := by
  cases place with
  | global name => rfl
  | property id name => rfl
  | param slot =>
    unfold contents? top? withStack
    cases m.frames <;> rfl
  | localVar slot =>
    unfold contents? top? withStack
    cases m.frames <;> rfl

@[simp] theorem place?_withStack (m : Machine) (stack : List Value) (scope : VariableKind)
    (number : Int32) : (m.withStack stack).place? scope number = m.place? scope number := by
  have receiver : (m.withStack stack).receiver = m.receiver := by
    unfold withStack receiver
    cases m.frames <;> rfl
  have slot : Step.slot? (m.withStack stack) number = Step.slot? m number := by
    unfold Step.slot? withStack slotScale
    cases m.frames <;> rfl
  unfold place?
  rw [receiver, slot, name_withStack, memory_withStack]

/-- An assignment leaves the operands. -/
theorem Stored.push (h : (m.withStack stack).Stored m' place value) (running : m.frames ≠ [])
    (v : Value) : Machine.push v m' = ((), m'.withStack (v :: stack)) := by
  obtain ⟨top, outer, frames⟩ := List.exists_cons_of_ne_nil running
  obtain ⟨params, locals, frames'⟩ := h.frames
  rw [withStack_of_frames frames, List.modifyHead_cons] at frames'
  rw [withStack_of_frames frames']
  exact congrArg (Prod.mk ()) (onTop_apply _ frames')

/-- The text of what is in a place. -/
def textIn (m : Machine) (place : Place) : String :=
  m.memory.text ((m.contents? place).getD .void)

end Machine

/-! ## The instructions -/

theorem execute_getChunk {c : Calls} {m : Machine} {i : Instruction} (is : i.opcode = .getChunk) :
    perform (Step.execute c i) m = (.ok (), (Step.getChunk m).2) := by
  rw [Step.execute, is]
  rfl

theorem execute_putChunk {c : Calls} {m : Machine} {i : Instruction} (is : i.opcode = .putChunk) :
    perform (Step.execute c i) m = (.ok (), (Step.putChunk i.argument m).2) := by
  rw [Step.execute, is]
  rfl

/-- A chunk expression with one level in use that selects chunks of the text of a variable
divides this text in three. From a value with this text, the instruction that gets a chunk
pushes the part between. The one that puts a chunk puts a value into, before or after this
part. It changes no other place, and the operands below its own stay; and the instruction
that pushes the variable then pushes the new text. -/
theorem chunk_of_variable {c : Calls} {m : Machine} (running : m.frames ≠ [])
    {scope : VariableKind} {id : Value} {place : Place}
    (addressed : m.place? scope id.toInt32 = some place) {range : ChunkKind → Value × Value}
    {kind : ChunkKind} (only : ∀ k, (chunkLevel range k).used = true ↔ k = kind)
    (selects : (chunkRange (chunkCount (m.textIn place).toList kind m.config.itemDelimiter)
      (chunkLevel range kind).first (chunkLevel range kind).last).isSome)
    (stack : List Value) :
    ∃ before chunk behind, m.textIn place = before ++ chunk ++ behind ∧
      (∀ (get : Instruction) (v : Value), get.opcode = .getChunk →
        m.memory.text v = m.textIn place →
        perform (Step.execute c get) (m.withStack (v :: (chunkOperands range ++ stack))) =
          (.ok (), m.withStack (.text chunk :: stack))) ∧
      ∀ (put : Instruction) (value : Value), put.opcode = .putChunk →
        Step.variableKind? (put.argument &&& 0xF) = some scope →
        let new := (Step.putMode put.argument).splice before chunk behind (m.memory.text value)
        ∃ m', perform (Step.execute c put)
            (m.withStack (id :: value :: (chunkOperands range ++ stack))) = (.ok (), m') ∧
          (m.withStack stack).Stored m' place (.text new) ∧
          ∀ get : Instruction, get.opcode.reads? = some scope → get.argument = id.toInt32 →
            perform (Step.execute c get) m' = (.ok (), m'.withStack (.text new :: stack)) := by
  obtain ⟨before, chunk, behind, split, read, written⟩ := exists_selection selects
  refine ⟨before, chunk, behind, split, fun get v is same => ?get, fun put value is code => ?put⟩
  case get =>
    have narrowed (cs : List Char) :
        Step.narrow m.config.itemDelimiter cs (chunkLevels range) =
          chunkText cs kind (chunkLevel range kind).first (chunkLevel range kind).last
            m.config.itemDelimiter := by
      rw [chunkLevels_of_only only]
      rfl
    rw [execute_getChunk is, getChunk_withStack running, narrowed, same, read]
  case put =>
    intro new
    have ne : scope ≠ .field := by
      rintro rfl
      cases addressed
    have outermost : Step.outermost (chunkLevels range) = chunkLevel range kind := by
      rw [chunkLevels_of_only only]
      rfl
    have still := (m.place?_withStack stack scope id.toInt32).trans addressed
    have current : m.memory.text (Step.variableValue (m.withStack stack) ⟨scope, id, .void⟩) =
        m.textIn place := by
      rw [variableValue_eq still, contents?_withStack, textIn]
    obtain ⟨m', assigned, stored, reads⟩ :=
      setVariable_assigns (withStack_running running stack) still (.text new)
    refine ⟨m', ?_, stored, fun get is argument => ?_⟩
    · rw [execute_putChunk is, putChunk_withStack running code ne]
      dsimp only
      rw [current, outermost, show (chunkLevel range kind).kind = kind from rfl, written, assigned]
    · rw [execute_get is argument, reads, stored.push running]

/-- A handler with a local variable. -/
def titleSite : HandlerSite where
  library := { names := ⟨#["title"]⟩ }
  script := { member := 1, kind := .movie, handlers := #[{ nameId := 0, locals := [0] }] }
  index := 0
  inRange := by decide

/-- A machine that runs it. -/
def titleMachine : Machine where
  frames := [{ Frame.enter titleSite #[] .void with locals := #[.text "a,b,c"] }]

/-- The second item. -/
def secondItem : ChunkKind → Value × Value
  | .item => (.int 2, .int 0)
  | _ => (.int 0, .int 0)

/-- The item is replaced, and the others stay. -/
theorem chunk_of_variable_item :
    let put : Instruction := ⟨0, .putChunk, 0x5A, 0x15⟩
    let place := Place.localVar 0
    titleMachine.frames ≠ [] ∧
    titleMachine.place? .localVar (Value.int 0).toInt32 = some place ∧
    (∀ k, (chunkLevel secondItem k).used = true ↔ k = .item) ∧
    (chunkRange (chunkCount (titleMachine.textIn place).toList .item
      titleMachine.config.itemDelimiter) (chunkLevel secondItem .item).first
      (chunkLevel secondItem .item).last).isSome ∧
    ∃ m', perform (Step.execute titleMachine.calls put)
        (titleMachine.withStack (.int 0 :: .text "X" :: (chunkOperands secondItem ++ []))) =
          (.ok (), m') ∧
      m'.contents? place = some (.text "a,X,c") := by
  intro put place
  have running : titleMachine.frames ≠ [] := List.cons_ne_nil _ _
  have addressed : titleMachine.place? .localVar (Value.int 0).toInt32 = some place := by
    decide +kernel
  have only : ∀ k, (chunkLevel secondItem k).used = true ↔ k = .item := by
    intro k
    cases k <;> decide
  have selects : (chunkRange (chunkCount (titleMachine.textIn place).toList .item
      titleMachine.config.itemDelimiter) (chunkLevel secondItem .item).first
      (chunkLevel secondItem .item).last).isSome := by decide +kernel
  obtain ⟨before, chunk, behind, -, -, puts⟩ :=
    @chunk_of_variable titleMachine.calls titleMachine running _ _ _ addressed _ _ only selects []
  obtain ⟨m', run, -, -⟩ := puts put (.text "X") rfl (by decide)
  refine ⟨running, addressed, only, selects, m', run, ?_⟩
  obtain rfl := congrArg Prod.snd run
  decide +kernel

end Lingo
