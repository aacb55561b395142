import Lingo.Proofs.Authored
import Lingo.Proofs.Origin
import Lingo.Proofs.Slots

/-!
# What operands mean

An operand `#name` is the number of a name, and an operand of an operation on slots
is a number or a declared name (`Section.slot?`). `Library.Given` says of a library
that its code consists of the instructions that the lines of its text spell, with
these operands (`Library.Means`); `given_of_assemble` carries it along a text, while
names are still added to the table and variables are still declared.

`operands_mean`: in every machine whose running handler is of an assembled library,
whatever the libraries of the handlers below it, an instruction finds the name that is
written and accesses the slot that is written.
-/

namespace Lingo

open Machine
open Host (perform)

/-! ## Operands in the section of a handler -/

/-- The variables that the section of a handler declares, in the order of their
slots. -/
def Section.slots (block : Section) : Bank → List Token
  | .params => (argumentsOf block.header).drop 1
  | .locals => declared localWords block.body

/-- Whether a token is a name in any case. -/
def Token.spells (name : String) : Token → Bool
  | .word other => Text.sameName other name
  | _ => false

/-- The slot that an operand means: its number, or the position at which its name was
declared first. -/
def Section.slot? (block : Section) (bank : Bank) : Token → Option Int
  | .int n => some n
  | .word name => ((block.slots bank).findIdx? (Token.spells name)).map Int.ofNat
  | _ => none

/-- The lines with an instruction. -/
def instructionLines (lines : List (List Token)) : List (List Token) :=
  lines.filter fun line => (opcodeOf line).isSome

/-- What an argument is, by its operand: a name has a number, and a slot is scaled. -/
def Library.Means (lib : Library) (block : Section) (op : Opcode) (argument : Int32) :
    Token → Prop
  | .symbol name => lib.names.Resolves (.word name) argument
  | .label _ => True
  | token => ∀ bank, op.bank? = some bank →
    ∃ n, block.slot? bank token = some n ∧ argument = Int32.ofInt n * lib.slotScale

/-- An instruction is what its line spells. -/
structure Instruction.Given (lib : Library) (block : Section) (line : List Token)
    (i : Instruction) : Prop where
  opcode : opcodeOf line = some i.opcode
  operand : ∀ token, argumentsOf line = [token] → lib.Means block i.opcode i.argument token

/-- The code of a handler is what its section spells. -/
def Handler.Given (lib : Library) (block : Section) (h : Handler) : Prop :=
  List.Forall₂ (Instruction.Given lib block) (instructionLines block.body) h.code.toList

def Script.Given (lib : Library) (lines : Section) (s : Script) : Prop :=
  List.Forall₂ (Handler.Given lib) (sections "handler" lines.body) s.handlers.toList

/-- The code of a library is what lines spell. -/
def Library.Given (lib : Library) (lines : List (List Token)) : Prop :=
  List.Forall₂ (Script.Given lib) (sections "script" lines) lib.scripts.toList

/-- An instruction of an open handler is what its line spells, its label aside. -/
structure Pending.Given (lib : Library) (block : Section) (line : List Token) (p : Pending) :
    Prop where
  opcode : opcodeOf line = some p.opcode
  operand : ∀ token, argumentsOf line = [token] →
    token.isLabel = true ∨ ∃ n, p.operand = .value n ∧ lib.Means block p.opcode n token

/-- An open handler is what its section spells. -/
structure OpenHandler.Given (lib : Library) (block : Section) (o : OpenHandler) : Prop where
  params : block.slots .params = o.params.map .word
  locals : block.slots .locals = o.locals.map .word
  body : List.Forall₂ (Pending.Given lib block) (instructionLines block.body) o.body.toList

/-- An open block is what the section of its script spells. -/
def Block.Given (lib : Library) (last : Section) : Block → Prop
  | .top => False
  | .script s => s.script.Given lib last
  | .handler s o => ∃ blocks current, sections "handler" last.body = blocks ++ [current] ∧
      List.Forall₂ (Handler.Given lib) blocks s.script.handlers.toList ∧ o.Given lib current

/-- What has been read is what the lines spell. -/
def Assembly.Given (a : Assembly) (lines : List (List Token)) : Prop :=
  Covered (Script.Given a.library) (Block.Given a.library) a.library.scripts.toList
    (sections "script" lines) a.block

/-! ### More names -/

/-- A library with more names, and the same scale of slots. -/
structure Library.Extends (lib lib' : Library) : Prop where
  names : lib.names.list <+: lib'.names.list
  scale : lib'.slotScale = lib.slotScale

section

variable {lib lib' : Library} (more : lib.Extends lib')
include more

theorem Library.Means.grow {block : Section} {op : Opcode} {n : Int32} {token : Token}
    (h : lib.Means block op n token) : lib'.Means block op n token := by
  cases token with
  | symbol name => exact Names.Resolves.grow more.names h
  | label name => trivial
  | _ =>
    intro bank hb
    obtain ⟨slot, found, scaled⟩ := h bank hb
    exact ⟨slot, found, more.scale ▸ scaled⟩

theorem Handler.Given.grow {block : Section} {h : Handler} (given : h.Given lib block) :
    h.Given lib' block :=
  given.imp fun _ _ here =>
    { here with operand := fun token ht => (here.operand token ht).grow more }

theorem Script.Given.grow {lines : Section} {s : Script} (given : s.Given lib lines) :
    s.Given lib' lines :=
  given.imp fun _ _ => Handler.Given.grow more

theorem OpenHandler.Given.grow {block : Section} {o : OpenHandler} (given : o.Given lib block) :
    o.Given lib' block :=
  { given with
    body := given.body.imp fun _ _ here =>
      { here with
        operand := fun token ht => (here.operand token ht).imp_right fun ⟨n, value, means⟩ =>
          ⟨n, value, means.grow more⟩ } }

theorem Block.Given.grow {last : Section} {block : Block} (given : block.Given lib last) :
    block.Given lib' last := by
  cases block with
  | top => exact given
  | script s => exact Script.Given.grow more given
  | handler s o =>
    obtain ⟨blocks, current, inner, closed, inside⟩ := given
    exact ⟨blocks, current, inner, closed.imp fun _ _ => Handler.Given.grow more,
      inside.grow more⟩

end

/-! ### More lines -/

theorem forall₂_compose {α β γ : Type} {R : α → β → Prop} {S : β → γ → Prop} {T : α → γ → Prop}
    {xs : List α} {ys : List β} {zs : List γ} (h : List.Forall₂ R xs ys)
    (h' : List.Forall₂ S ys zs) (both : ∀ x y z, R x y → S y z → T x z) :
    List.Forall₂ T xs zs := by
  induction h generalizing zs with
  | nil =>
    cases h'
    exact .nil
  | cons first _ ih =>
    cases h' with
    | cons first' rest' => exact .cons (both _ _ _ first first') (ih rest')

section

variable {lib : Library} {block : Section} {line : List Token}

theorem opcodeOf_eq (line : List Token) :
    opcodeOf line = (mnemonicOf line).bind Opcode.ofMnemonic? := by
  rw [opcodeOf, mnemonicOf]
  rcases statementOf line with _ | ⟨token, args⟩
  · rfl
  cases token with
  | word word =>
    dsimp only
    split
    · rename_i known
      exact ofMnemonic?_directive (List.contains_iff_mem.mp known)
    · rfl
  | _ => rfl

theorem instructionLines_quiet (h : mnemonicOf line = none) (lines : List (List Token)) :
    instructionLines (lines ++ [line]) = instructionLines lines := by
  have none : opcodeOf line = none := by rw [opcodeOf_eq, h]; rfl
  rw [instructionLines, List.filter_append, List.filter_cons_of_neg (by simp [none]),
    List.filter_nil, List.append_nil]
  rfl

theorem instructionLines_more {op : Opcode} (h : opcodeOf line = some op)
    (lines : List (List Token)) :
    instructionLines (lines ++ [line]) = instructionLines lines ++ [line] := by
  rw [instructionLines, List.filter_append, List.filter_cons_of_pos (by simp [h]),
    List.filter_nil]
  rfl

/-- What is declared keeps its slot. -/
theorem Section.slot?_add {bank : Bank} {token : Token} {n : Int}
    (h : block.slot? bank token = some n) (line : List Token) :
    (block.add line).slot? bank token = some n := by
  have grows : block.slots bank <+: (block.add line).slots bank := by
    cases bank with
    | params => exact List.prefix_refl _
    | locals =>
      rw [slots, slots, Section.add, declared_snoc]
      exact List.prefix_append _ _
  obtain ⟨added, grown⟩ := grows
  cases token with
  | word name =>
    obtain ⟨k, found, rfl⟩ := Option.map_eq_some_iff.mp h
    rw [slot?, ← grown, List.findIdx?_append, found]
    rfl
  | int m => exact h
  | _ => cases h

theorem Library.Means.add {op : Opcode} {n : Int32} {token : Token}
    (h : lib.Means block op n token) (line : List Token) :
    lib.Means (block.add line) op n token := by
  cases token with
  | symbol name => exact h
  | label name => trivial
  | _ =>
    intro bank hb
    obtain ⟨slot, found, scaled⟩ := h bank hb
    exact ⟨slot, Section.slot?_add found line, scaled⟩

theorem Handler.Given.add {h : Handler} (given : h.Given lib block)
    (mnemonic : mnemonicOf line = none) : h.Given lib (block.add line) := by
  rw [Handler.Given, Section.add, instructionLines_quiet mnemonic]
  exact given.imp fun _ _ here =>
    { here with operand := fun token ht => (here.operand token ht).add line }

theorem Pending.Given.add {other : List Token} {p : Pending} (given : p.Given lib block other)
    (line : List Token) : p.Given lib (block.add line) other :=
  { given with
    operand := fun token ht => (given.operand token ht).imp_right fun ⟨n, value, means⟩ =>
      ⟨n, value, means.add line⟩ }

theorem Script.Given.add {s : Script} (given : s.Given lib block) {properties : Bool}
    (declares : Declares line properties false) : s.Given lib (block.add line) := by
  rw [Script.Given, Section.add, sections_snoc, Section.read_other declares.handler]
  exact forall₂_modifyLast given fun _ _ here => here.add declares.mnemonic

theorem OpenHandler.Given.add {o : OpenHandler} (given : o.Given lib block)
    (locals : hasOneOf localWords line = false) (mnemonic : mnemonicOf line = none) :
    o.Given lib (block.add line) where
  params := given.params
  locals := (declared_quiet locals block.body).trans given.locals
  body := by
    rw [Section.add, instructionLines_quiet mnemonic]
    exact given.body.imp fun _ _ here => here.add line

theorem OpenHandler.Given.declare {o : OpenHandler} (given : o.Given lib block)
    (isLocal : hasOneOf localWords line = true) (mnemonic : mnemonicOf line = none)
    {more : List String} (args : argumentsOf line = more.map .word) :
    OpenHandler.Given lib (block.add line) { o with locals := o.locals ++ more } where
  params := given.params
  locals := by
    have before : declared localWords block.body = o.locals.map .word := given.locals
    rw [Section.slots, Section.add, declared_more isLocal, before, args, List.map_append]
  body := by
    rw [Section.add, instructionLines_quiet mnemonic]
    exact given.body.imp fun _ _ here => here.add line

theorem OpenHandler.Given.push {o : OpenHandler} (given : o.Given lib block)
    (locals : hasOneOf localWords line = false) {p : Pending} (here : p.Given lib block line) :
    OpenHandler.Given lib (block.add line) { o with body := o.body.push p } where
  params := given.params
  locals := (declared_quiet locals block.body).trans given.locals
  body := by
    rw [Section.add, instructionLines_more here.opcode, Array.toList_push]
    exact List.rel_append (given.body.imp fun _ _ other => other.add line)
      (.cons (here.add line) .nil)

/-- Laying out a handler changes no numbers. -/
theorem OpenHandler.Given.close {o : OpenHandler} (given : o.Given lib block)
    {code : List Instruction} (hc : layout o.body.toList o.labels = .ok code) :
    List.Forall₂ (Instruction.Given lib block) (instructionLines block.body) code := by
  refine forall₂_compose given.body (Layout.layout_keeps hc) fun line p i here kept => ?_
  refine ⟨kept.opcode ▸ here.opcode, fun token ht => ?_⟩
  rw [kept.opcode]
  rcases here.operand token ht with label | ⟨n, value, means⟩
  · cases token with
    | label name => trivial
    | _ => cases label
  · rw [kept.argument n value]
    exact means

/-- Open blocks are still what they were when a line says nothing. -/
theorem Block.Given.add {open' : Block} (given : open'.Given lib block) (silent : Silent line) :
    open'.Given lib (block.add line) := by
  cases open' with
  | top => exact given
  | script s => exact Script.Given.add given silent
  | handler s o =>
    obtain ⟨blocks, current, inner, closed, inside⟩ := given
    refine ⟨blocks, current.add line, ?_, closed, inside.add silent.locals silent.mnemonic⟩
    rw [Section.add, sections_snoc, Section.read_other silent.handler, inner,
      List.modifyLast_concat]

end

/-! ### Operands that are read -/

section

variable {lib lib' known : Library} {s s' : OpenScript} {o : OpenHandler} {block : Section}
  {number : Nat} {op : Opcode} {token : Token} (inside : o.Given known block)
include inside

/-- A variable is found in the slot in which its section declares it. -/
theorem variableSlot_means {bank : Bank} (hb : op.bank? = some bank) {n : Int32}
    (hn : Assembly.variableSlot number o op token = .ok n) :
    ∃ slot, block.slot? bank token = some slot ∧ n = Int32.ofInt slot := by
  cases token with
  | word name =>
    have position : ∀ {names : List String} {i : Nat}, block.slots bank = names.map .word →
        names.findIdx? (Text.sameName · name) = some i →
        ∃ slot, block.slot? bank (.word name) = some slot ∧ Int32.ofNat i = Int32.ofInt slot := by
      intro names i declared found
      refine ⟨i, ?_, rfl⟩
      rw [Section.slot?, declared, List.findIdx?_map]
      exact congrArg (Option.map Int.ofNat) found
    unfold Assembly.variableSlot at hn
    cases op with
    | getParam | setParam =>
      cases hb
      dsimp only at hn
      split at hn
      · rename_i i found
        cases hn
        exact position inside.params found
      · cases hn
    | getLocal | setLocal =>
      cases hb
      dsimp only at hn
      split at hn
      · rename_i i found
        cases hn
        exact position inside.locals found
      · cases hn
    | _ => cases hb
  | int m =>
    have read : Assembly.intOperand number (.int m) = .ok n := hn
    obtain ⟨_, same, value⟩ := Assembly.intOperand_ok read
    cases same
    exact ⟨m, rfl, value⟩
  | _ => cases hn

/-- What is read of an operand is what it means. -/
theorem operand_means {operand : Operand}
    (ho : Assembly.operand lib s o number op token = .ok (operand, lib', s')) :
    token.isLabel = true ∨ ∃ n, operand = .value n ∧ lib'.Means block op n token := by
  unfold Assembly.operand at ho
  split at ho
  · exact .inl rfl
  · rename_i name
    cases ho
    obtain ⟨resolves, -⟩ := List.forall₂_cons.mp (Names.interned_intern lib.names name).resolves
    exact .inr ⟨_, rfl, resolves⟩
  · rename_i noLabel noSymbol
    have means : ∀ n, (∀ bank, op.bank? = some bank →
        ∃ slot, block.slot? bank token = some slot ∧ n = Int32.ofInt slot * lib.slotScale) →
        lib.Means block op n token := by
      intro n scaled
      cases token with
      | label name => trivial
      | symbol name => exact absurd rfl (noSymbol name)
      | _ => exact scaled
    have scaled : ∀ n, Assembly.variableSlot number o op token = .ok n →
        lib.Means block op (n * lib.slotScale) token := by
      refine fun n hn => means _ fun bank hb => ?_
      obtain ⟨slot, found, rfl⟩ := variableSlot_means inside hb hn
      exact ⟨slot, found, rfl⟩
    right
    split at ho
    · split at ho
      · obtain ⟨literal, -, ho⟩ := bind_eq_ok.mp ho
        cases ho
        exact ⟨_, rfl, means _ nofun⟩
      · cases ho
    · split at ho
      · cases ho
        exact ⟨_, rfl, means _ nofun⟩
      · cases ho
    all_goals
      obtain ⟨n, hn, ho⟩ := bind_eq_ok.mp ho
      cases ho
    · exact ⟨_, rfl, scaled n hn⟩
    · exact ⟨_, rfl, scaled n hn⟩
    · exact ⟨_, rfl, scaled n hn⟩
    · exact ⟨_, rfl, scaled n hn⟩
    · rename_i noGetParam noSetParam noGetLocal noSetLocal
      refine ⟨_, rfl, means _ fun bank hb => ?_⟩
      cases op with
      | getParam => exact absurd rfl noGetParam
      | setParam => exact absurd rfl noSetParam
      | getLocal => exact absurd rfl noGetLocal
      | setLocal => exact absurd rfl noSetLocal
      | _ => cases hb

end

/-! ### Accepted lines -/

namespace Assembly

variable {a a' : Assembly} {number : Nat} {line : List Token} {lines : List (List Token)}

theorem Given.start : Given {} [] :=
  .inl ⟨rfl, .nil⟩

/-- At the top, all scripts are closed. -/
theorem Given.closed (h : a.Given lines) (block : a.block = .top) : a.library.Given lines :=
  h.all block fun _ => id

theorem Given.labelled (h : a.Given lines) {label : Option String} (hl : Labelled a label a') :
    a'.Given lines := by
  cases hl with
  | unlabelled => exact h
  | label block new =>
    obtain ⟨closed, last, split, before, opened⟩ := h.inside (by rw [block]; exact nofun)
    rw [block] at opened
    obtain ⟨blocks, current, inner, here, inside⟩ := opened
    exact .inr ⟨closed, last, split, before, blocks, current, inner, here, { inside with }⟩

/-- A line of the open script, which adds names and changes the open block. -/
theorem Given.advance (h : a.Given lines) (script : hasDirective "script" line = false)
    (open' : a.block ≠ .top) {names : Names} (grows : a.library.names.list <+: names.list)
    {block : Block}
    (step : ∀ last, a.block.Given { a.library with names } last →
      block.Given { a.library with names } (last.add line)) :
    Given { library := { a.library with names }, block } (lines ++ [line]) := by
  have more : a.library.Extends { a.library with names } := ⟨grows, rfl⟩
  exact Covered.advance h script open' (fun _ _ => Script.Given.grow more)
    fun last opened => step last (opened.grow more)

/-- A line that says nothing. -/
theorem Given.pass (h : a.Given lines) (silent : Silent line) : a.Given (lines ++ [line]) :=
  Covered.pass h silent.script (fun _ _ here => Script.Given.add here silent)
    fun _ opened => opened.add silent

/-- A line in a handler that opens nothing. -/
theorem Given.within (h : a.Given lines) {s s' : OpenScript} {o o' : OpenHandler}
    (block : a.block = .handler s o) (script : hasDirective "script" line = false)
    (handler : hasDirective "handler" line = false) {names : Names}
    (grows : a.library.names.list <+: names.list)
    (kept : s'.script.handlers = s.script.handlers)
    (inside : ∀ current : Section, o.Given { a.library with names } current →
      o'.Given { a.library with names } (current.add line)) :
    Given { library := { a.library with names }, block := .handler s' o' } (lines ++ [line]) := by
  refine h.advance script (by rw [block]; exact nofun) grows fun last opened => ?_
  rw [block] at opened
  obtain ⟨blocks, current, inner, here, open'⟩ := opened
  refine ⟨blocks, current.add line, ?_, kept ▸ here, inside current open'⟩
  rw [Section.add, sections_snoc, Section.read_other handler, inner, List.modifyLast_concat]

section

variable {word : String} {args : List Token} (hst : statementOf line = .word word :: args)
include hst

/-- Settings of a library are read while there are no scripts. -/
theorem Given.library (h : a.Given lines) (directive : Text.asciiLower word = "library")
    (block : a.block = .top) (first : a.library.scripts = #[]) {lib : Library}
    (scripts : lib.scripts = a.library.scripts) :
    Given { a with library := lib } (lines ++ [line]) := by
  have silent := silent_of_directive hst (by rw [directive]; decide)
  have before := h.closed block
  rw [Library.Given, first, List.forall₂_nil_right_iff] at before
  refine .inl ⟨block, ?_⟩
  rw [sections_snoc, Section.read_other silent.script, before, scripts, first]
  exact .nil

theorem Given.script (h : a.Given lines) (directive : Text.asciiLower word = "script")
    (block : a.block = .top) {s : Script} (handlers : s.handlers = #[]) :
    Given { a with block := .script ⟨number, s⟩ } (lines ++ [line]) := by
  have opens : hasDirective "script" line = true :=
    (hasDirective_word hst _).trans (beq_iff_eq.mpr directive)
  refine .inr ⟨sections "script" lines, { header := line }, ?_, h.closed block, ?_⟩
  · rw [sections_snoc, Section.read_opens opens]
  · rw [Block.Given, Script.Given, handlers]
    exact .nil

theorem Given.property (h : a.Given lines) (directive : Text.asciiLower word ∈ propertyWords)
    {s : OpenScript} (block : a.block = .script s) {names : Names}
    (grows : a.library.names.list <+: names.list) {properties : List Int32} :
    Given
      { library := { a.library with names }
        block := .script { s with script := { s.script with properties } } }
      (lines ++ [line]) := by
  have declares : Declares line true false := declares_of_directive (by decide) hst directive
  refine h.advance declares.script (by rw [block]; exact nofun) grows fun last opened => ?_
  rw [block] at opened
  exact Script.Given.add opened declares

theorem Given.handler (h : a.Given lines) (directive : Text.asciiLower word = "handler")
    {s : OpenScript} (block : a.block = .script s) {name : String} {params : List String}
    (declares : args = (name :: params).map .word) {names : Names}
    (grows : a.library.names.list <+: names.list) {nameId : Int32} :
    Given
      { library := { a.library with names }
        block := .handler s { line := number, name, nameId, params } }
      (lines ++ [line]) := by
  have opens : hasDirective "handler" line = true :=
    (hasDirective_word hst _).trans (beq_iff_eq.mpr directive)
  have other : hasDirective "script" line = false :=
    (hasDirective_word hst _).trans (by rw [directive]; decide)
  refine h.advance other (by rw [block]; exact nofun) grows fun last opened => ?_
  rw [block] at opened
  refine ⟨sections "handler" last.body, { header := line }, ?_, opened, ?_, rfl, .nil⟩
  · rw [Section.add, sections_snoc, Section.read_opens opens]
  · rw [Section.slots, argumentsOf, hst, declares]
    rfl

theorem Given.locals (h : a.Given lines) (directive : Text.asciiLower word ∈ localWords)
    {s : OpenScript} {o : OpenHandler} (block : a.block = .handler s o) {declared : List String}
    (declares : args = declared.map .word) {names : Names}
    (grows : a.library.names.list <+: names.list) :
    Given
      { library := { a.library with names }
        block := .handler s { o with locals := o.locals ++ declared } }
      (lines ++ [line]) := by
  have declaresLocals : Declares line false true :=
    declares_of_directive (by decide) hst directive
  refine h.within block declaresLocals.script declaresLocals.handler grows rfl
    fun current inside => inside.declare declaresLocals.locals declaresLocals.mnemonic ?_
  rw [argumentsOf, hst, List.drop_succ_cons, List.drop_zero, declares]

/-- An instruction is added as its operand means. -/
theorem Given.instruction (h : a.Given lines) {s s' : OpenScript} {o : OpenHandler}
    (block : a.block = .handler s o) {p : Pending} (hop : Opcode.ofMnemonic? word = some p.opcode)
    {names : Names} (grows : a.library.names.list <+: names.list)
    (kept : s'.script.handlers = s.script.handlers)
    (operand : ∀ token, args = [token] → ∀ current, o.Given { a.library with names } current →
      token.isLabel = true ∨ ∃ n, p.operand = .value n ∧
        { a.library with names }.Means current p.opcode n token) :
    Given
      { library := { a.library with names }, block := .handler s' { o with body := o.body.push p } }
      (lines ++ [line]) := by
  refine h.within block (hasDirective_mnemonic hst hop (by decide))
    (hasDirective_mnemonic hst hop (by decide)) grows kept fun current inside => ?_
  refine inside.push (hasOneOf_mnemonic hst hop (by decide)) ⟨?_, fun token ht => ?_⟩
  · exact (opcodeOf_word hst).trans hop
  · rw [argumentsOf, hst, List.drop_succ_cons, List.drop_zero] at ht
    exact operand token ht current inside

theorem Given.endHandler (h : a.Given lines) (directive : Text.asciiLower word = "end")
    {s : OpenScript} {o : OpenHandler} (block : a.block = .handler s o) {built : Handler}
    (hc : layout o.body.toList o.labels = .ok built.code.toList) :
    Given
      { a with block := .script { s with script := { s.script with
          handlers := s.script.handlers.push built } } }
      (lines ++ [line]) := by
  have silent := silent_of_directive hst (by rw [directive]; decide)
  refine h.advance silent.script (by rw [block]; exact nofun) (List.prefix_refl _)
    fun last opened => ?_
  rw [block] at opened
  obtain ⟨blocks, current, inner, closed, inside⟩ := opened
  rw [Block.Given, Script.Given, Section.add, sections_snoc, Section.read_other silent.handler,
    inner, List.modifyLast_concat, Array.toList_push]
  exact List.rel_append closed
    (.cons ((inside.add silent.locals silent.mnemonic).close hc) .nil)

theorem Given.endScript (h : a.Given lines) (directive : Text.asciiLower word = "end")
    {s : OpenScript} (block : a.block = .script s) :
    Given
      { library := { a.library with scripts := a.library.scripts.push s.script }, block := .top }
      (lines ++ [line]) := by
  have passed := h.pass (silent_of_directive hst (by rw [directive]; decide))
  obtain ⟨closed, last, split, before, here⟩ := passed.inside (by rw [block]; exact nofun)
  rw [block] at here
  have more : a.library.Extends { a.library with scripts := a.library.scripts.push s.script } :=
    ⟨List.prefix_refl _, rfl⟩
  refine .inl ⟨rfl, ?_⟩
  rw [split, Array.toList_push]
  exact List.rel_append (before.imp fun _ _ => Script.Given.grow more)
    (.cons (Script.Given.grow more here) .nil)

end

theorem Given.stated (h : a.Given lines) (hs : Stated number a (statementOf line) a') :
    a'.Given (lines ++ [line]) := by
  generalize hst : statementOf line = st at hs
  cases hs with
  | nothing => exact h.pass (silent_of_nil hst)
  | library directive block first hn settings =>
    exact h.library hst directive block first (librarySettings_keep settings).2.2
  | script directive block hn hk new named => exact h.script hst directive block rfl
  | @property word args s declared directive block hd =>
    refine h.property hst ?_ block (Names.interned_internAll a.library.names declared).grows
    rcases directive with directive | directive <;> rw [directive] <;> decide
  | @handler word args s name params directive block hd =>
    exact h.handler hst directive block (declaredNames_ok hd)
      (Names.interned_internAll a.library.names (name :: params)).grows
  | @locals word args s o declared directive block hd =>
    refine h.locals hst ?_ block (declaredNames_ok hd)
      (Names.interned_internAll a.library.names declared).grows
    rcases directive with directive | directive <;> rw [directive] <;> decide
  | endHandler directive block hc => exact h.endHandler hst directive block hc
  | endScript directive block => exact h.endScript hst directive block
  | @«instruction» word arg s s' o op operand lib block hop takes ho =>
    obtain ⟨library, script, -⟩ := operand_keep ho
    obtain ⟨added, ids, interned, -⟩ := operand_interned ho
    have means : ∀ {known : Library} {current : Section}, o.Given known current →
        arg.isLabel = true ∨ ∃ n, operand = .value n ∧ lib.Means current op n arg :=
      fun inside => operand_means inside ho
    rw [library] at means ⊢
    refine h.instruction hst block hop interned.grows (by rw [script]) ?_
    rintro token same current inside
    cases same
    exact means inside
  | plain block hop takes =>
    exact h.instruction hst block hop (List.prefix_refl _) rfl nofun

/-- An accepted line is kept as what it spells. -/
theorem Given.feed (h : a.Given lines) {text : List Char} (hf : a.feed number text = .ok a') :
    a'.Given (lines ++ [lineTokens text]) := by
  obtain ⟨tokens, ht, a₁, hl, hs⟩ := feed_cases hf
  rw [lineTokens, ht]
  exact (h.labelled hl).stated hs

end Assembly

/-- The code of an assembled library is what the lines of its text spell. -/
theorem given_of_assemble {text : String} {lib : Library} (accepted : assemble text = .ok lib) :
    lib.Given ((textLines text).map lineTokens) := by
  obtain ⟨a, read, finished⟩ := bind_eq_ok.mp accepted
  have given : a.Given ((textLines text).map lineTokens) := by
    refine Assembly.feedAll_induction (P := fun texts a => a.Given (texts.map lineTokens))
      read .start fun before a line a' _ given fed => ?_
    rw [List.map_append]
    exact given.feed fed
  unfold Assembly.finish at finished
  split at finished
  · rename_i top
    cases finished
    exact given.closed top
  · cases finished
  · cases finished

/-! ## Instructions in a machine -/

/-- An instruction of a library does in a machine what its line says. The argument for
a name is the number of an entry that is the name in some case, and resolves to it if
it has not wrapped; and a slot that can be scaled is the one that is read or assigned
to. -/
structure Instruction.Obeys (lib : Library) (block : Section) (line : List Token)
    (i : Instruction) (m : Machine) : Prop where
  name : ∀ name, argumentsOf line = [.symbol name] →
    ∃ entry k, lib.names.list[k]? = some entry ∧ Text.sameName entry name = true ∧
      i.argument = Int32.ofNat k ∧ (k < 2147483648 → m.name i.argument = entry)
  slot : ∀ bank token n, i.opcode.bank? = some bank → argumentsOf line = [token] →
    block.slot? bank token = some n → Slot.Fits lib.slotScale n →
    (i.opcode = .setLocal → n < maxLocals) → i.Accesses bank n m

/-- Whichever handlers are active below, an instruction obeys its line if the running
handler is of the library. -/
theorem Instruction.Given.obeys {lib : Library} {block : Section} {line : List Token}
    {i : Instruction} (given : i.Given lib block line) {m : Machine} {top : Frame}
    {rest : List Frame} (frames : m.frames = top :: rest) (library : top.library = lib) :
    i.Obeys lib block line m := by
  subst library
  refine ⟨fun name written => ?_, fun bank token n hb written declared fits inside => ?_⟩
  · obtain ⟨_, entry, k, same, found, alike, argument, resolves⟩ := given.operand _ written
    cases same
    refine ⟨entry, k, found, alike, argument, fun small => ?_⟩
    rw [Machine.name, frames]
    exact congrArg (Option.getD · _) (resolves small)
  · have means := given.operand token written
    have scaled : ∃ n, block.slot? bank token = some n ∧
        i.argument = Int32.ofInt n * top.library.slotScale := by
      cases token with
      | symbol name | label name => cases declared
      | _ => exact means bank hb
    obtain ⟨_, same, scaled⟩ := scaled
    cases declared.symm.trans same
    refine accesses_of_scaled hb scaled fits inside fun other top? => ?_
    rw [Machine.top?, frames] at top?
    cases top?
    rfl

/-- The instructions of a library are those of the lines of a text, and obey them in
every machine whose running handler is of the library. -/
def Library.Obeys (lib : Library) (lines : List (List Token)) : Prop :=
  List.Forall₂
    (fun script s => List.Forall₂
      (fun block h => List.Forall₂
        (fun line i => opcodeOf line = some i.opcode ∧
          ∀ m top rest, m.frames = top :: rest → top.library = lib → i.Obeys lib block line m)
        (instructionLines block.body) h.code.toList)
      (sections "handler" script.body) s.handlers.toList)
    (sections "script" lines) lib.scripts.toList

/-- Whatever a handler of the library executes has a line, and obeys it. -/
theorem Library.Obeys.executed {lib : Library} {lines : List (List Token)} (h : lib.Obeys lines)
    {m : Machine} {top : Frame} {i : Instruction} (hn : m.next? = some (top, i))
    (library : top.library = lib) (script : top.script ∈ lib.scripts) :
    ∃ script ∈ sections "script" lines, ∃ block ∈ sections "handler" script.body,
      ∃ line ∈ block.body, opcodeOf line = some i.opcode ∧
        i.Obeys lib block line (fetch top i m).2 := by
  obtain ⟨rest, log, events, -, fetched⟩ := fetch_frames hn
  have handler : top.handler ∈ top.script.handlers :=
    Array.getElem_mem top.site.inRange
  have executed : i ∈ top.handler.code := Array.mem_of_getElem? (next?_current hn)
  obtain ⟨lines, hlines, h⟩ := mem_of_forall₂ h (Array.mem_toList_iff.mpr script)
  obtain ⟨block, hblock, h⟩ := mem_of_forall₂ h (Array.mem_toList_iff.mpr handler)
  obtain ⟨line, hline, opcode, h⟩ := mem_of_forall₂ h (Array.mem_toList_iff.mpr executed)
  refine ⟨lines, hlines, block, hblock, line, (List.mem_filter.mp hline).1, opcode, ?_⟩
  rw [fetched]
  exact h _ top.advance rest rfl library

/-! ## Runs -/

/-- An instruction that is executed is the next one of the running handler. -/
def Happening.Fetched : Happening → Prop
  | .instruction m i _ => ∃ top, m.next? = some (top, i)
  | _ => True

/-- Where there are no parts to be looked at. -/
theorem Happening.Fetched.single {x y : Happening} (hy : y.Fetched) (parts : y.parts = [])
    (h : x.Within [y]) : x.Fetched := by
  rcases h.of_cons with rfl | h | h
  · exact hy
  · exact absurd (parts ▸ h) x.not_within_nil
  · exact absurd h x.not_within_nil

theorem Happening.fetched_change {m : Machine} {x : Happening} :
    x.Within [.change m] → x.Fetched :=
  Fetched.single (y := .change m) trivial rfl

theorem Ends.fetched {α : Type} {t : Task α} {m : Machine} {run : List Happening}
    {e : Except Fault α × Machine} (h : Ends t m run e) :
    ∀ x : Happening, x.Within run → x.Fetched := by
  induction h with
  | pure | throw | stopped | overflow | exhausted => exact fun x hx => absurd hx x.not_within_nil
  | read _ ih | skip _ ih | contain _ _ ih | reenter _ ih => exact ih
  | next _ _ iha ihf => exact fun x hx => hx.of_append.elim (iha x) (ihf x)
  | work | stop | nested | done => exact fun x hx => Happening.fetched_change hx
  | write cell key f m =>
    exact fun x hx => Happening.Fetched.single (y := .write m cell key) trivial rfl hx
  | containFault _ _ ih => exact fun x hx => hx.of_append.elim (ih x) Happening.fetched_change
  | activate _ _ _ _ _ ih =>
    intro x hx
    rcases hx.of_cons with rfl | hx | hx
    · trivial
    · exact hx.of_append.elim (ih x) Happening.fetched_change
    · exact absurd hx x.not_within_nil
  | step hn _ _ ihi ihr =>
    intro x hx
    rcases hx.of_cons with rfl | hx | hx
    · exact ⟨_, hn⟩
    · exact ihi x hx
    · exact ihr x hx
  | fault hn _ ih =>
    intro x hx
    rcases hx.of_cons with rfl | hx | hx
    · exact ⟨_, hn⟩
    · exact ih x hx
    · exact absurd hx x.not_within_nil

/-- Names and slots of an assembled library mean what is written: in every machine
whose running handler is of the library, and so at every moment of a run, whichever
handlers of whichever libraries call each other. -/
theorem operands_mean {text : String} {lib : Library} (accepted : assemble text = .ok lib) :
    lib.Obeys ((textLines text).map lineTokens) ∧
      ∀ (entry : Entry) m run e, Ends (.act entry.body) m run e →
        ∀ m' i parts, (Happening.instruction m' i parts).Within run →
          ∃ top, m'.next? = some (top, i) ∧
            (top.library = lib → top.script ∈ lib.scripts →
              ∃ script ∈ sections "script" ((textLines text).map lineTokens),
                ∃ block ∈ sections "handler" script.body, ∃ line ∈ block.body,
                  opcodeOf line = some i.opcode ∧
                    i.Obeys lib block line (fetch top i m').2) := by
  have obeys : lib.Obeys ((textLines text).map lineTokens) :=
    (given_of_assemble accepted).imp fun _ _ given => given.imp fun _ _ given =>
      given.imp fun _ _ here => ⟨here.opcode, fun _ _ _ => here.obeys⟩
  refine ⟨obeys, fun entry m run e h m' i parts hx => ?_⟩
  obtain ⟨top, hn⟩ := h.fetched _ hx
  exact ⟨top, hn, obeys.executed hn⟩

/-- A handler that names a parameter, and then a global, in other case than its header
does, and reads a slot below the first one. -/
def scoreText : String :=
  "library 2 version=400\nscript 1 movie\nhandler add a, Score\n" ++
  "GET_PARAM score\nGET_LOCAL -1\nGET_GLOBAL #SCORE\nend\nend\n"

/-- Slots are stored six times as large, and the global has the number of the
parameter's name. -/
theorem operands_mean_score :
    ∃ lib, assemble scoreText = .ok lib ∧ lib.slotScale = 6 ∧
      lib.handlers.map (fun h => h.code.toList.map (·.argument)) = [[6, -6, 2]] ∧
      lib.Obeys ((textLines scoreText).map lineTokens) := by
  have accepted : (assemble scoreText).toOption.map (fun lib =>
      (lib.slotScale, lib.handlers.map fun h => h.code.toList.map (·.argument))) =
        some (6, [[6, -6, 2]]) := by
    decide +kernel
  cases read : assemble scoreText with
  | error e =>
    rw [read] at accepted
    cases accepted
  | ok lib =>
    rw [read] at accepted
    obtain ⟨scale, arguments⟩ := Prod.mk.inj (Option.some.inj accepted)
    exact ⟨lib, rfl, scale, arguments, (operands_mean read).1⟩

end Lingo
