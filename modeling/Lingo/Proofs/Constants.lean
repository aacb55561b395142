import Lingo.Proofs.Literals
import Lingo.Proofs.Meaning

/-!
# Constants

A constant push finds its literal in the table of its script, where literals that are the
same are entered once. Only the two zeros are the same without being equal, so that a script
has one of them in its table, the one that it writes first (`Section.kept`).

* `find?_entered`: what is found in a table is what was entered first;
* `Assembly.Pooled`: of what has been read so far, each instruction with a literal has the
  number of the first literal in the table that is the same, and the table is that of the
  literals that have been written. `Assembly.Pooled.stated` carries this along a line;
* `constants_pushed`: what follows for an accepted text, and for the machines that run it.
-/

namespace Lingo

open Machine
open Host (perform)

/-! ## Tables that are filled -/

section

variable {α : Type} {same : α → α → Bool}

/-- The table that is made by entering elements one after the other. -/
def entered (same : α → α → Bool) (xs : List α) : List α :=
  xs.foldl (fun table x => (enter same table x).2) []

theorem entered_snoc (same : α → α → Bool) (xs : List α) (x : α) :
    entered same (xs ++ [x]) = (enter same (entered same xs) x).2 := by
  rw [entered, List.foldl_append]
  rfl

/-- What has been entered is found by its number. -/
theorem findIdx?_enter (table : List α) {x : α} (itself : same x x = true) :
    (enter same table x).2.findIdx? (same · x) = some (enter same table x).1 := by
  unfold enter
  cases found : table.findIdx? (same · x) with
  | some i => exact found
  | none =>
    rw [List.findIdx?_append, found, Option.none_or, List.findIdx?_cons, if_pos itself]
    simp

theorem findIdx?_of_prefix {p : α → Bool} {table table' : List α} {k : Nat}
    (grows : table <+: table') (found : table.findIdx? p = some k) :
    table'.findIdx? p = some k := by
  obtain ⟨added, rfl⟩ := grows
  rw [List.findIdx?_append, found, Option.some_or]

/-- What is found in a table is what was entered first. -/
theorem find?_entered (same : α → α → Bool)
    (trans : ∀ x y z, same x y = true → same y z = true → same x z = true) (xs : List α) (x : α) :
    (entered same xs).find? (same · x) = xs.find? (same · x) := by
  induction xs using List.reverseRecOn with
  | nil => rfl
  | append_singleton xs y ih =>
    rw [entered_snoc, List.find?_append, ← ih]
    rcases enter_cases same (entered same xs) y with ⟨i, hi, eq, alike⟩ | ⟨eq, -⟩
    · rw [eq]
      by_cases like : same y x = true
      · -- The table has an entry like `y`, which is found as well as `y` would be.
        have some : ((entered same xs).find? (same · x)).isSome = true :=
          List.find?_isSome.mpr ⟨_, List.getElem_mem hi, trans _ _ _ alike like⟩
        obtain ⟨z, found⟩ := Option.isSome_iff_exists.mp some
        rw [found, Option.some_or]
      · have unlike : [y].find? (same · x) = none := by simpa using like
        rw [unlike, Option.or_none]
    · rw [eq, List.find?_append]

end

/-! ## Lines with a literal -/

/-- The literal that a token spells; an integer that fits without a sign only wraps. -/
def Token.literal? : Token → Option Literal
  | .string s => some (.text s)
  | .int n => some (.int (Int32.ofInt n))
  | .float x => some (.float x)
  | _ => none

/-- The literal that the operand of an operation spells, if it pushes one. -/
def Opcode.literal? (op : Opcode) (token : Token) : Option Literal :=
  if op = .pushCons then token.literal? else none

/-- The literal that a line pushes. -/
def literalOf? (line : List Token) : Option Literal :=
  match opcodeOf line, argumentsOf line with
  | some op, [token] => op.literal? token
  | _, _ => none

/-- The literals that a script pushes, as they are written. -/
def Section.literals (script : Section) : List Literal :=
  script.body.filterMap literalOf?

/-- What a script has in its table for a literal: the literal, but for a zero the one that
is written first. -/
def Section.kept (script : Section) (x : Literal) : Literal :=
  if x.isZero then (script.literals.find? Literal.isZero).getD x else x

/-- The lines of a script that have an instruction, in its handlers. -/
def Section.code (script : Section) : List (List Token) :=
  (sections "handler" script.body).flatMap fun block => instructionLines block.body

section

variable {line : List Token}

theorem literalOf?_quiet (h : mnemonicOf line = none) : literalOf? line = none := by
  rw [literalOf?, opcodeOf_eq, h]
  rfl

theorem literalOf?_plain {word : String} (hst : statementOf line = [.word word]) :
    literalOf? line = none := by
  rw [literalOf?, argumentsOf, hst]
  cases opcodeOf line <;> rfl

theorem literalOf?_argument {word : String} {token : Token} {op : Opcode}
    (hst : statementOf line = [.word word, token]) (hop : Opcode.ofMnemonic? word = some op) :
    literalOf? line = op.literal? token := by
  rw [literalOf?, argumentsOf, opcodeOf, hst]
  dsimp only [List.drop]
  rw [hop]

theorem Section.literals_add (script : Section) (line : List Token) :
    (script.add line).literals = script.literals ++ (literalOf? line).toList := by
  rw [literals, literals, add, List.filterMap_append, List.filterMap_cons]
  cases literalOf? line <;> rfl

/-- A literal that is written is the same as itself. -/
theorem same_of_literalOf? {text : List Char} (ht : Token.tokenize text = .ok line) {x : Literal}
    (hx : literalOf? line = some x) : x.same x = true := by
  unfold literalOf? at hx
  split at hx
  · rename_i op token hop args
    have here : token ∈ line := by
      have rest : argumentsOf line <:+ line :=
        (List.drop_suffix _ _).trans (statementOf_suffix line)
      exact rest.subset (by rw [args]; exact List.mem_singleton_self token)
    unfold Opcode.literal? at hx
    split at hx
    · cases token with
      | string s =>
        cases hx
        exact beq_self_eq_true s
      | int n =>
        cases hx
        exact beq_self_eq_true _
      | float x =>
        cases hx
        have number := Number.Double.isNaN_of_tokenize ht x here
        exact Number.Double.sameNumber_iff.mpr ⟨number, number, rfl⟩
      | _ => cases hx
    · cases hx
  · cases hx

/-- The literal that is found in the table is the one that is kept. -/
theorem Section.eq_kept {script : Section} {x y : Literal}
    (found : script.literals.find? (·.same x) = some y) : y = script.kept x := by
  unfold kept
  split
  · rename_i zero
    simp only [Literal.same_zero zero] at found
    rw [found, Option.getD_some]
  · rename_i nonzero
    have same : y.same x = true := List.find?_some (p := fun z => Literal.same z x) found
    exact Literal.eq_of_same same (Bool.eq_false_iff.mpr nonzero)

end

/-! ### Where instructions stand -/

section

variable {α : Type} {directive : String} {line : List Token} {f : Section → List α}

theorem flatMap_read (fresh : f { header := line } = [])
    (quiet : ∀ block : Section, f (block.add line) = f block) (done : List Section) :
    (Section.read directive done line).flatMap f = done.flatMap f := by
  cases opens : hasDirective directive line with
  | true =>
    rw [Section.read_opens opens, List.flatMap_append, List.flatMap_singleton, fresh,
      List.append_nil]
  | false =>
    rw [Section.read_other opens]
    rcases List.eq_nil_or_concat done with rfl | ⟨before, last, rfl⟩
    · rfl
    · rw [List.concat_eq_append, List.modifyLast_concat, List.flatMap_append,
        List.flatMap_append, List.flatMap_singleton, List.flatMap_singleton, quiet]

theorem flatMap_read_last (inside : hasDirective directive line = false) {last : Section}
    {more : List α} (adds : f (last.add line) = f last ++ more) (before : List Section) :
    (Section.read directive (before ++ [last]) line).flatMap f =
      (before ++ [last]).flatMap f ++ more := by
  rw [Section.read_other inside, List.modifyLast_concat, List.flatMap_append,
    List.flatMap_append, List.flatMap_singleton, List.flatMap_singleton, adds,
    List.append_assoc]

/-- A line without an instruction adds none to any script. -/
theorem code_quiet (mnemonic : mnemonicOf line = none) (lines : List (List Token)) :
    (sections "script" (lines ++ [line])).flatMap Section.code =
      (sections "script" lines).flatMap Section.code := by
  rw [sections_snoc]
  refine flatMap_read rfl (fun script => ?_) _
  rw [Section.code, Section.add, sections_snoc]
  exact flatMap_read rfl (fun block => instructionLines_quiet mnemonic block.body) _

/-- An instruction is added to the last handler of the last script. -/
theorem code_more {op : Opcode} (hop : opcodeOf line = some op)
    (script : hasDirective "script" line = false) (handler : hasDirective "handler" line = false)
    {lines : List (List Token)} {before blocks : List Section} {last current : Section}
    (split : sections "script" lines = before ++ [last])
    (inner : sections "handler" last.body = blocks ++ [current]) :
    (sections "script" (lines ++ [line])).flatMap Section.code =
      (sections "script" lines).flatMap Section.code ++ [line] := by
  rw [sections_snoc, split]
  refine flatMap_read_last script ?_ before
  rw [Section.code, Section.code, Section.add, sections_snoc, inner]
  exact flatMap_read_last handler (instructionLines_more hop current.body) blocks

end

/-! ## Operands that are entered -/

/-- What reading an operand makes of a table of literals: the literal that it spells, if it
spells one, is entered, and the operand is its number. -/
def Enters (literal? : Option Literal) (operand : Operand) (table table' : List Literal) : Prop :=
  literal? = none ∧ table' = table ∨
    ∃ x, literal? = some x ∧ operand = .value (Int32.ofNat (enter Literal.same table x).1) ∧
      table' = (enter Literal.same table x).2

theorem literal?_of_operand {number : Nat} {token : Token} {read : AsmResult Literal}
    (operand : Assembly.literalOperand? number token = some read) {x : Literal}
    (hx : read = .ok x) : token.literal? = some x := by
  subst hx
  cases token with
  | string | float =>
    cases operand
    rfl
  | int n =>
    obtain ⟨m, hm, rfl⟩ : ∃ m, Assembly.intOperand number (.int n) = .ok m ∧ Literal.int m = x := by
      have read : (Assembly.intOperand number (.int n)).map Literal.int = .ok x :=
        Option.some.inj operand
      cases hm : Assembly.intOperand number (.int n) with
      | ok m =>
        rw [hm] at read
        cases read
        exact ⟨m, rfl, rfl⟩
      | error e =>
        rw [hm] at read
        cases read
    obtain ⟨_, same, rfl⟩ := Assembly.intOperand_ok hm
    cases same
    rfl
  | _ => cases operand

theorem operand_enters {lib lib' : Library} {s s' : OpenScript} {o : OpenHandler} {number : Nat}
    {op : Opcode} {token : Token} {operand : Operand}
    (ho : Assembly.operand lib s o number op token = .ok (operand, lib', s')) :
    Enters (op.literal? token) operand s.script.literals.toList s'.script.literals.toList := by
  have other : token.literal? = none → s' = s →
      Enters (op.literal? token) operand s.script.literals.toList s'.script.literals.toList := by
    rintro none rfl
    refine .inl ⟨?_, rfl⟩
    rw [Opcode.literal?, none, ite_self]
  have unread : op ≠ .pushCons → s' = s →
      Enters (op.literal? token) operand s.script.literals.toList s'.script.literals.toList := by
    rintro otherwise rfl
    exact .inl ⟨if_neg otherwise, rfl⟩
  unfold Assembly.operand at ho
  split at ho
  · cases ho
    exact other rfl rfl
  · cases ho
    exact other rfl rfl
  · split at ho
    · split at ho
      · rename_i read spelled
        obtain ⟨x, hx, ho⟩ := bind_eq_ok.mp ho
        rw [internLiteral_eq] at ho
        cases ho
        refine .inr ⟨x, ?_, rfl, rfl⟩
        rw [Opcode.literal?, if_pos rfl]
        exact literal?_of_operand spelled hx
      · cases ho
    · split at ho
      · cases ho
        exact unread nofun rfl
      · cases ho
    all_goals
      obtain ⟨n, hn, ho⟩ := bind_eq_ok.mp ho
      cases ho
    · exact unread nofun rfl
    · exact unread nofun rfl
    · exact unread nofun rfl
    · exact unread nofun rfl
    · rename_i otherwise _ _ _ _ _
      exact unread (fun same => otherwise same) rfl

namespace Enters

variable {x? : Option Literal} {operand : Operand} {table table' : List Literal}
  (h : Enters x? operand table table')
include h

theorem grows : table <+: table' := by
  rcases h with ⟨-, rfl⟩ | ⟨x, -, -, rfl⟩
  · exact List.prefix_refl _
  · exact prefix_enter _ _ _

theorem table_eq {written : List Literal} (before : table = entered Literal.same written) :
    table' = entered Literal.same (written ++ x?.toList) := by
  rcases h with ⟨rfl, rfl⟩ | ⟨x, rfl, -, rfl⟩
  · rw [Option.toList_none, List.append_nil]
    exact before
  · rw [Option.toList_some, entered_snoc, before]

theorem found {x : Literal} (hx : x? = some x) (itself : x.same x = true) :
    ∃ k, table'.findIdx? (·.same x) = some k ∧ operand = .value (Int32.ofNat k) := by
  rcases h with ⟨rfl, -⟩ | ⟨y, rfl, value, rfl⟩
  · cases hx
  · cases hx
    exact ⟨_, findIdx?_enter table itself, value⟩

end Enters

/-! ## What has been read -/

/-- A line has an operation, and if it has a literal, then `numbered` holds of the number of
the first entry that is the same. -/
structure Indexes (table : List Literal) (line : List Token) (op : Opcode)
    (numbered : Int32 → Prop) : Prop where
  opcode : opcodeOf line = some op
  literal : ∀ x, literalOf? line = some x →
    ∃ k, table.findIdx? (·.same x) = some k ∧ numbered (Int32.ofNat k)

def Instruction.Indexed (table : List Literal) (line : List Token) (i : Instruction) : Prop :=
  Indexes table line i.opcode (i.argument = ·)

def Pending.Indexed (table : List Literal) (line : List Token) (p : Pending) : Prop :=
  Indexes table line p.opcode (p.operand = .value ·)

def Handler.Indexed (table : List Literal) (block : Section) (h : Handler) : Prop :=
  List.Forall₂ (Instruction.Indexed table) (instructionLines block.body) h.code.toList

def OpenHandler.Indexed (table : List Literal) (block : Section) (o : OpenHandler) : Prop :=
  List.Forall₂ (Pending.Indexed table) (instructionLines block.body) o.body.toList

/-- The table of a script is that of its literals, and its handlers are those of some of its
sections. -/
structure Script.PooledAs (lines : Section) (blocks : List Section) (s : Script) : Prop where
  table : s.literals.toList = entered Literal.same lines.literals
  handlers : List.Forall₂ (Handler.Indexed s.literals.toList) blocks s.handlers.toList

/-- The table of a script is that of its literals, and its handlers are those of its
sections. -/
def Script.Pooled (lines : Section) (s : Script) : Prop :=
  s.PooledAs lines (sections "handler" lines.body)

/-- An open block, against the section of its script. -/
def Block.Pooled (last : Section) : Block → Prop
  | .top => False
  | .script s => s.script.Pooled last
  | .handler s o => ∃ blocks current, sections "handler" last.body = blocks ++ [current] ∧
      s.script.PooledAs last blocks ∧ o.Indexed s.script.literals.toList current

/-- What has been read, against its lines: each instruction stands in a handler of a script,
and those with a literal have its number. -/
structure Assembly.Pooled (a : Assembly) (lines : List (List Token)) : Prop where
  covered : Covered Script.Pooled Block.Pooled a.library.scripts.toList (sections "script" lines)
    a.block
  placed : instructionLines lines = (sections "script" lines).flatMap Section.code

/-! ### More literals -/

section

variable {table table' : List Literal} (grows : table <+: table')
include grows

theorem Indexes.grow {line : List Token} {op : Opcode} {numbered : Int32 → Prop}
    (here : Indexes table line op numbered) : Indexes table' line op numbered where
  opcode := here.opcode
  literal := by
    intro x hx
    obtain ⟨k, found, number⟩ := here.literal x hx
    exact ⟨k, findIdx?_of_prefix grows found, number⟩

theorem Handler.Indexed.grow {block : Section} {h : Handler} (indexed : h.Indexed table block) :
    h.Indexed table' block :=
  indexed.imp fun _ _ => Indexes.grow grows

theorem OpenHandler.Indexed.grow {block : Section} {o : OpenHandler}
    (indexed : o.Indexed table block) : o.Indexed table' block :=
  indexed.imp fun _ _ => Indexes.grow grows

end

/-! ### More lines -/

section

variable {lines : Section} {line : List Token}

theorem Script.PooledAs.add {blocks : List Section} {s : Script} (pooled : s.PooledAs lines blocks)
    (mnemonic : mnemonicOf line = none) : s.PooledAs (lines.add line) blocks where
  table := by
    rw [Section.literals_add, literalOf?_quiet mnemonic, Option.toList_none, List.append_nil]
    exact pooled.table
  handlers := pooled.handlers

theorem Script.Pooled.add {s : Script} (pooled : s.Pooled lines)
    (handler : hasDirective "handler" line = false) (mnemonic : mnemonicOf line = none) :
    s.Pooled (lines.add line) := by
  refine { PooledAs.add pooled mnemonic with handlers := ?_ }
  rw [Section.add, sections_snoc, Section.read_other handler]
  refine forall₂_modifyLast pooled.handlers fun block h here => ?_
  rw [Handler.Indexed, Section.add, instructionLines_quiet mnemonic]
  exact here

theorem OpenHandler.Indexed.add {table : List Literal} {o : OpenHandler}
    (indexed : o.Indexed table lines) (mnemonic : mnemonicOf line = none) :
    o.Indexed table (lines.add line) := by
  rw [OpenHandler.Indexed, Section.add, instructionLines_quiet mnemonic]
  exact indexed

theorem Block.Pooled.add {block : Block} (pooled : block.Pooled lines)
    (handler : hasDirective "handler" line = false) (mnemonic : mnemonicOf line = none) :
    block.Pooled (lines.add line) := by
  cases block with
  | top => exact pooled
  | script s => exact Script.Pooled.add pooled handler mnemonic
  | handler s o =>
    obtain ⟨blocks, current, inner, script, inside⟩ := pooled
    refine ⟨blocks, current.add line, ?_, script.add mnemonic, inside.add mnemonic⟩
    rw [Section.add, sections_snoc, Section.read_other handler, inner, List.modifyLast_concat]

/-- Laying out a handler changes no numbers. -/
theorem OpenHandler.Indexed.close {table : List Literal} {o : OpenHandler}
    (indexed : o.Indexed table lines) {code : List Instruction}
    (hc : layout o.body.toList o.labels = .ok code) :
    List.Forall₂ (Instruction.Indexed table) (instructionLines lines.body) code := by
  refine forall₂_compose indexed (Layout.layout_keeps hc) fun line p i here kept => ?_
  refine ⟨kept.opcode ▸ here.opcode, fun x hx => ?_⟩
  obtain ⟨k, found, value⟩ := here.literal x hx
  exact ⟨k, found, kept.argument _ value⟩

/-- An instruction that is entered is one more of the open handler. -/
theorem Block.Pooled.push {s s' : OpenScript} {o : OpenHandler} {p : Pending}
    (pooled : (Block.handler s o).Pooled lines) (handler : hasDirective "handler" line = false)
    (hop : opcodeOf line = some p.opcode) (kept : s'.script.handlers = s.script.handlers)
    (enters : Enters (literalOf? line) p.operand s.script.literals.toList
      s'.script.literals.toList)
    (itself : ∀ x, literalOf? line = some x → x.same x = true) :
    (Block.handler s' { o with body := o.body.push p }).Pooled (lines.add line) := by
  obtain ⟨blocks, current, inner, script, inside⟩ := pooled
  refine ⟨blocks, current.add line, ?_, ⟨?_, ?_⟩, ?_⟩
  · rw [Section.add, sections_snoc, Section.read_other handler, inner, List.modifyLast_concat]
  · rw [Section.literals_add]
    exact enters.table_eq script.table
  · rw [kept]
    exact script.handlers.imp fun _ _ => Handler.Indexed.grow enters.grows
  · rw [OpenHandler.Indexed, Section.add, instructionLines_more hop, Array.toList_push]
    exact List.rel_append (inside.grow enters.grows)
      (.cons ⟨hop, fun x hx => enters.found hx (itself x hx)⟩ .nil)

end

/-! ### Accepted lines -/

namespace Assembly

variable {a a' : Assembly} {number : Nat} {line : List Token} {lines : List (List Token)}

theorem Pooled.start : Pooled {} [] :=
  ⟨.inl ⟨rfl, .nil⟩, rfl⟩

theorem Pooled.labelled (h : a.Pooled lines) {label : Option String} (hl : Labelled a label a') :
    a'.Pooled lines := by
  cases hl with
  | unlabelled => exact h
  | label block new =>
    obtain ⟨before, last, split, all, opened⟩ := h.covered.inside (by rw [block]; exact nofun)
    rw [block] at opened
    exact ⟨.inr ⟨before, last, split, all, opened⟩, h.placed⟩

/-- Lines with no instruction stand in no handler. -/
theorem Pooled.unplaced (h : a.Pooled lines) (mnemonic : mnemonicOf line = none) :
    instructionLines (lines ++ [line]) =
      (sections "script" (lines ++ [line])).flatMap Section.code := by
  rw [instructionLines_quiet mnemonic, code_quiet mnemonic]
  exact h.placed

/-- A line that opens no section and has no instruction. -/
theorem Pooled.quiet (h : a.Pooled lines) {properties slots : Bool}
    (declares : Declares line properties slots) (scripts : a'.library.scripts = a.library.scripts)
    (top : a.block = .top → a'.block = .top)
    (block : ∀ last, a.block.Pooled last → a'.block.Pooled last) :
    a'.Pooled (lines ++ [line]) := by
  refine ⟨?_, h.unplaced declares.mnemonic⟩
  have passed := h.covered.pass declares.script
    (fun _ _ here => here.add declares.handler declares.mnemonic)
    (fun _ opened => opened.add declares.handler declares.mnemonic)
  rw [scripts]
  rcases passed with ⟨isTop, all⟩ | ⟨before, last, split, all, opened⟩
  · exact .inl ⟨top isTop, all⟩
  · exact .inr ⟨before, last, split, all, block last opened⟩

section

variable {word : String} {args : List Token} (hst : statementOf line = .word word :: args)
include hst

theorem Pooled.script (h : a.Pooled lines) (directive : Text.asciiLower word = "script")
    (block : a.block = .top) {s : Script} (literals : s.literals = #[])
    (handlers : s.handlers = #[]) :
    Pooled { a with block := .script ⟨number, s⟩ } (lines ++ [line]) := by
  have opens : hasDirective "script" line = true :=
    (hasDirective_word hst _).trans (beq_iff_eq.mpr directive)
  refine ⟨.inr ⟨sections "script" lines, { header := line }, ?_, ?_, ?_⟩, ?_⟩
  · rw [sections_snoc, Section.read_opens opens]
  · exact h.covered.all block fun _ => id
  · refine ⟨congrArg Array.toList literals, ?_⟩
    rw [handlers]
    exact .nil
  · exact h.unplaced (mnemonicOf_directive hst (by rw [directive]; decide))

theorem Pooled.handler (h : a.Pooled lines) (directive : Text.asciiLower word = "handler")
    {s : OpenScript} (block : a.block = .script s) {o : OpenHandler} (body : o.body = #[])
    {lib : Library} (scripts : lib.scripts = a.library.scripts) :
    Pooled { library := lib, block := .handler s o } (lines ++ [line]) := by
  have opens : hasDirective "handler" line = true :=
    (hasDirective_word hst _).trans (beq_iff_eq.mpr directive)
  have other : hasDirective "script" line = false :=
    (hasDirective_word hst _).trans (by rw [directive]; decide)
  have mnemonic := mnemonicOf_directive hst (by rw [directive]; decide)
  refine ⟨?_, h.unplaced mnemonic⟩
  rw [scripts]
  refine h.covered.advance other (by rw [block]; exact nofun) (fun _ _ => id) fun last opened => ?_
  rw [block] at opened
  have before := Script.PooledAs.add opened mnemonic
  refine ⟨sections "handler" last.body, { header := line }, ?_, before, ?_⟩
  · rw [Section.add, sections_snoc, Section.read_opens opens]
  · rw [OpenHandler.Indexed, body]
    exact .nil

theorem Pooled.instruction (h : a.Pooled lines) {s s' : OpenScript} {o : OpenHandler}
    (block : a.block = .handler s o) {p : Pending} (hop : Opcode.ofMnemonic? word = some p.opcode)
    {lib : Library} (scripts : lib.scripts = a.library.scripts)
    (kept : s'.script.handlers = s.script.handlers)
    (enters : Enters (literalOf? line) p.operand s.script.literals.toList
      s'.script.literals.toList)
    (itself : ∀ x, literalOf? line = some x → x.same x = true) :
    Pooled { library := lib, block := .handler s' { o with body := o.body.push p } }
      (lines ++ [line]) := by
  have script : hasDirective "script" line = false := hasDirective_mnemonic hst hop (by decide)
  have handler : hasDirective "handler" line = false := hasDirective_mnemonic hst hop (by decide)
  have opcode : opcodeOf line = some p.opcode := (opcodeOf_word hst).trans hop
  have open' : a.block ≠ .top := by
    intro top
    rw [block] at top
    cases top
  constructor
  · rw [scripts]
    refine h.covered.advance script open' (fun _ _ => id) fun last opened => ?_
    rw [block] at opened
    exact opened.push handler opcode kept enters itself
  · obtain ⟨before, last, split, -, opened⟩ := h.covered.inside open'
    rw [block] at opened
    obtain ⟨blocks, current, inner, -, -⟩ := opened
    rw [instructionLines_more opcode, code_more opcode script handler split inner, h.placed]

theorem Pooled.endHandler (h : a.Pooled lines) (directive : Text.asciiLower word = "end")
    {s : OpenScript} {o : OpenHandler} (block : a.block = .handler s o) {built : Handler}
    (hc : layout o.body.toList o.labels = .ok built.code.toList) :
    Pooled
      { a with block := .script { s with script := { s.script with
          handlers := s.script.handlers.push built } } }
      (lines ++ [line]) := by
  have silent := silent_of_directive hst (by rw [directive]; decide)
  refine ⟨?_, h.unplaced silent.mnemonic⟩
  refine h.covered.advance silent.script (by rw [block]; exact nofun) (fun _ _ => id)
    fun last opened => ?_
  rw [block] at opened
  obtain ⟨blocks, current, inner, script, inside⟩ := opened
  refine ⟨(script.add silent.mnemonic).table, ?_⟩
  rw [Section.add, sections_snoc, Section.read_other silent.handler, inner,
    List.modifyLast_concat, Array.toList_push]
  exact List.rel_append script.handlers (.cons ((inside.add silent.mnemonic).close hc) .nil)

theorem Pooled.endScript (h : a.Pooled lines) (directive : Text.asciiLower word = "end")
    {s : OpenScript} (block : a.block = .script s) :
    Pooled
      { library := { a.library with scripts := a.library.scripts.push s.script }, block := .top }
      (lines ++ [line]) := by
  have silent := silent_of_directive hst (by rw [directive]; decide)
  have passed : a.Pooled (lines ++ [line]) := h.quiet silent rfl id fun _ => id
  obtain ⟨before, last, split, all, here⟩ := passed.covered.inside (by rw [block]; exact nofun)
  rw [block] at here
  refine ⟨.inl ⟨rfl, ?_⟩, passed.placed⟩
  rw [split, Array.toList_push]
  exact List.rel_append all (.cons here .nil)

end

theorem Pooled.stated (h : a.Pooled lines) (hs : Stated number a (statementOf line) a')
    (itself : ∀ x, literalOf? line = some x → x.same x = true) : a'.Pooled (lines ++ [line]) := by
  generalize hst : statementOf line = st at hs
  cases hs with
  | nothing => exact h.quiet (silent_of_nil hst) rfl id fun _ => id
  | library directive block first hn settings =>
    exact h.quiet (silent_of_directive hst (by rw [directive]; decide))
      (librarySettings_keep settings).2.2 id fun _ => id
  | script directive block hn hk new named => exact h.script hst directive block rfl rfl
  | @property word args s declared directive block hd =>
    have known : Text.asciiLower word ∈ propertyWords := by
      rcases directive with directive | directive <;> rw [directive] <;> decide
    have declares : Declares line true false := declares_of_directive (by decide) hst known
    refine h.quiet declares rfl (by rw [block]; exact nofun) fun last opened => ?_
    rw [block] at opened
    exact ⟨opened.table, opened.handlers⟩
  | handler directive block hd => exact h.handler hst directive block rfl rfl
  | @locals word args s o declared directive block hd =>
    have known : Text.asciiLower word ∈ localWords := by
      rcases directive with directive | directive <;> rw [directive] <;> decide
    have declares : Declares line false true := declares_of_directive (by decide) hst known
    refine h.quiet declares rfl (by rw [block]; exact nofun) fun last opened => ?_
    rw [block] at opened
    exact opened
  | endHandler directive block hc => exact h.endHandler hst directive block hc
  | endScript directive block => exact h.endScript hst directive block
  | @«instruction» word arg s s' o op operand lib block hop takes ho =>
    obtain ⟨library, script, -⟩ := operand_keep ho
    refine h.instruction hst block hop (by rw [library]) (by rw [script]) ?_ itself
    rw [literalOf?_argument hst hop]
    exact operand_enters ho
  | plain block hop takes =>
    exact h.instruction hst block hop rfl rfl (.inl ⟨literalOf?_plain hst, rfl⟩) itself

/-- An accepted line is read with its literal. -/
theorem Pooled.feed (h : a.Pooled lines) {text : List Char} (hf : a.feed number text = .ok a') :
    a'.Pooled (lines ++ [lineTokens text]) := by
  obtain ⟨tokens, ht, a₁, hl, hs⟩ := feed_cases hf
  rw [lineTokens, ht]
  exact (h.labelled hl).stated hs fun _ => same_of_literalOf? ht

end Assembly

theorem pooled_of_assemble {text : String} {lib : Library} (accepted : assemble text = .ok lib) :
    ({ library := lib } : Assembly).Pooled ((textLines text).map lineTokens) := by
  obtain ⟨a, read, finished⟩ := bind_eq_ok.mp accepted
  have pooled : a.Pooled ((textLines text).map lineTokens) := by
    refine Assembly.feedAll_induction (P := fun texts a => a.Pooled (texts.map lineTokens))
      read .start fun before a line a' _ pooled fed => ?_
    rw [List.map_append]
    exact pooled.feed fed
  unfold Assembly.finish at finished
  split at finished
  · rename_i top
    cases finished
    exact ⟨.inl ⟨rfl, pooled.covered.all top fun _ => id⟩, pooled.placed⟩
  · cases finished
  · cases finished

/-! ## Constants in a machine -/

/-- An instruction finds in the table of its script what that holds for the literal of its
line, and pushes it. -/
structure Instruction.Pushes (held : Literal → Literal) (s : Script) (line : List Token)
    (i : Instruction) : Prop where
  opcode : opcodeOf line = some i.opcode
  literal : ∀ x, literalOf? line = some x →
    ∃ k, i.argument = Int32.ofNat k ∧ s.literals[k]? = some (held x) ∧
      (k < 2147483648 → ∀ (c : Calls) (m : Machine) (top : Frame) (rest : List Frame),
        m.frames = top :: rest → top.script = s →
          perform (Step.execute c i) m =
            (.ok (), { m with frames := top.push (Step.literalValue (held x)) :: rest }))

/-- All instructions of a text are in the handlers of its scripts, in the order in which they
are written, and push what `held` says of their literals. -/
structure Library.Pushes (held : Section → Literal → Literal) (lib : Library)
    (lines : List (List Token)) : Prop where
  placed : instructionLines lines = (sections "script" lines).flatMap Section.code
  scripts : List.Forall₂
    (fun script s => List.Forall₂
      (fun block h => List.Forall₂ (Instruction.Pushes (held script) s)
        (instructionLines block.body) h.code.toList)
      (sections "handler" script.body) s.handlers.toList)
    (sections "script" lines) lib.scripts.toList

theorem execute_pushCons (c : Calls) {m : Machine} {top : Frame} {rest : List Frame}
    (frames : m.frames = top :: rest) {i : Instruction} (op : i.opcode = .pushCons) {k : Nat}
    (argument : i.argument = Int32.ofNat k) (small : k < 2147483648) {x : Literal}
    (held : top.script.literals[k]? = some x) :
    perform (Step.execute c i) m =
      (.ok (), { m with frames := top.push (Step.literalValue x) :: rest }) := by
  have top? : m.top? = some top := by rw [Machine.top?, frames]; rfl
  have found : (m.top?.bind fun top =>
      if i.argument.toInt < 0 then none else top.script.literals[i.argument.toInt.toNat]?) =
        some x := by
    rw [top?, Option.bind_some, argument, toInt_ofNat small, if_neg (by omega), Int.toNat_natCast]
    exact held
  rw [← onTop_apply (·.push (Step.literalValue x)) frames]
  have pushed : Step.pushLiteral i.argument m = push (Step.literalValue x) m := by
    rw [Step.pushLiteral, get_bind_apply, found]
    rfl
  rcases i with ⟨offset, _, raw, id⟩
  cases op
  have step : perform (Step.execute c ⟨offset, .pushCons, raw, id⟩) m =
    (.ok (), (Step.pushLiteral id m).2) := rfl
  rw [step, pushed]
  rfl

/-- A line with a literal has a constant push. -/
theorem opcode_of_literalOf? {line : List Token} {op : Opcode} (hop : opcodeOf line = some op)
    {x : Literal} (hx : literalOf? line = some x) : op = .pushCons := by
  rw [literalOf?, hop] at hx
  split at hx
  · rename_i op' token same args
    cases same
    unfold Opcode.literal? at hx
    split at hx
    · assumption
    · cases hx
  · cases hx

theorem Script.PooledAs.pushes {script : Section} {blocks : List Section} {s : Script}
    (pooled : s.PooledAs script blocks) {line : List Token} {i : Instruction}
    (indexed : i.Indexed s.literals.toList line) : i.Pushes script.kept s line := by
  refine ⟨indexed.opcode, fun x hx => ?_⟩
  obtain ⟨k, found, argument⟩ := indexed.literal x hx
  obtain ⟨hk, same, first⟩ := List.findIdx?_eq_some_iff_getElem.mp found
  have held : s.literals[k]? = some (script.kept x) := by
    have entry : s.literals.toList.find? (·.same x) = some s.literals.toList[k] :=
      List.find?_eq_some_iff_getElem.mpr ⟨same, k, hk, rfl, fun j hj => by simpa using first j hj⟩
    rw [← Array.getElem?_toList, List.getElem?_eq_getElem hk]
    generalize s.literals.toList[k] = y at entry ⊢
    have trans : ∀ x y z : Literal, x.same y = true → y.same z = true → x.same z = true :=
      fun _ _ _ => Literal.same_trans
    rw [pooled.table, find?_entered Literal.same trans] at entry
    rw [Section.eq_kept entry]
  refine ⟨k, argument, held, fun small c m top rest frames isTop => ?_⟩
  subst isTop
  exact execute_pushCons c frames (opcode_of_literalOf? indexed.opcode hx) argument small held

/-- A constant push pushes the literal that is written, but for a zero the one that its
script writes first. -/
theorem constants_pushed {text : String} {lib : Library} (accepted : assemble text = .ok lib) :
    lib.Pushes Section.kept ((textLines text).map lineTokens) := by
  have pooled := pooled_of_assemble accepted
  refine ⟨pooled.placed, ?_⟩
  refine (pooled.covered.all rfl fun _ => id).imp fun script s here => ?_
  exact here.handlers.imp fun _ _ indexed => indexed.imp fun _ _ => here.pushes

/-- Two handlers that share an entry. -/
def sharedText : String :=
  "script 1 movie\nhandler go\nPUSH_CONS \"a\"\nPUSH_CONS 2.5\nend\n" ++
  "handler on\nPUSH_CONS 25e-1\nend\nend\n"

theorem constants_pushed_shared :
    ∃ lib, assemble sharedText = .ok lib ∧
      lib.handlers.map (fun h => h.code.toList.map (·.argument)) = [[0, 1], [1]] ∧
      lib.Pushes Section.kept ((textLines sharedText).map lineTokens) := by
  have accepted : (assemble sharedText).toOption.map (fun lib =>
      lib.handlers.map fun h => h.code.toList.map (·.argument)) = some [[0, 1], [1]] := by
    decide +kernel
  cases read : assemble sharedText with
  | error e =>
    rw [read] at accepted
    cases accepted
  | ok lib =>
    rw [read] at accepted
    exact ⟨lib, rfl, Option.some.inj accepted, constants_pushed read⟩

/-- What a line pushes is in the table of a script. -/
theorem Library.Pushes.mem_literals {held : Section → Literal → Literal} {lib : Library}
    {lines : List (List Token)} (h : lib.Pushes held lines) {line : List Token}
    (mem : line ∈ instructionLines lines) {x : Literal} (hx : literalOf? line = some x) :
    ∃ script, ∃ s ∈ lib.scripts, held script x ∈ s.literals := by
  rw [h.placed, List.mem_flatMap] at mem
  obtain ⟨script, hscript, mem⟩ := mem
  obtain ⟨block, hblock, mem⟩ := List.mem_flatMap.mp mem
  obtain ⟨s, hs, handlers⟩ := mem_of_forall₂ h.scripts.flip hscript
  obtain ⟨h, -, code⟩ := mem_of_forall₂ (List.Forall₂.flip handlers) hblock
  obtain ⟨i, -, pushes⟩ := mem_of_forall₂ (List.Forall₂.flip code) mem
  obtain ⟨k, -, entry, -⟩ := pushes.literal x hx
  exact ⟨script, s, Array.mem_toList_iff.mp hs, Array.mem_of_getElem? entry⟩

/-- A script that writes both zeros. -/
def zerosText : String :=
  "script 1 movie\nhandler go\nPUSH_CONS 0.0\nPUSH_CONS -0.0\nRET\nend\nend\n"

/-- The second of two zeros is not in the table, and so it is not pushed as it is written. -/
theorem constants_misses :
    let lines := (textLines zerosText).map lineTokens
    let zero : Number.Double := .ofMagnitude true 0
    ∃ lib, assemble zerosText = .ok lib ∧
      lib.scripts.toList.map (·.literals.toList) = [[.float .zero]] ∧
      [.word "PUSH_CONS", .float zero] ∈ lines ∧ ¬ lib.Pushes (fun _ x => x) lines := by
  intro lines zero
  have accepted : (assemble zerosText).toOption.map (fun lib =>
      lib.scripts.toList.map (·.literals.toList)) = some [[.float .zero]] := by
    decide +kernel
  have written : [.word "PUSH_CONS", .float zero] ∈ lines := by decide +kernel
  cases read : assemble zerosText with
  | error e =>
    rw [read] at accepted
    cases accepted
  | ok lib =>
    rw [read] at accepted
    have table : lib.scripts.toList.map (·.literals.toList) = [[.float .zero]] :=
      Option.some.inj accepted
    refine ⟨lib, rfl, table, written, fun pushes => ?_⟩
    have opcode : opcodeOf [.word "PUSH_CONS", .float zero] = some .pushCons :=
      ofMnemonic?_mnemonic .pushCons (by decide)
    have placed : [.word "PUSH_CONS", .float zero] ∈ instructionLines lines :=
      List.mem_filter.mpr ⟨written, by rw [opcode]; rfl⟩
    have literal : literalOf? [.word "PUSH_CONS", .float zero] = some (.float zero) := by
      rw [literalOf?, opcode]
      rfl
    obtain ⟨-, s, hs, held⟩ := pushes.mem_literals placed literal
    have only : s.literals.toList = [.float .zero] := by
      have entry := List.mem_map_of_mem (f := fun s : Script => s.literals.toList)
        (Array.mem_toList_iff.mpr hs)
      rw [table] at entry
      exact List.mem_singleton.mp entry
    rw [← Array.mem_toList_iff, only] at held
    revert held
    decide

end Lingo
