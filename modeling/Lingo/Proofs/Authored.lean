import Mathlib.Data.List.Forall2
import Mathlib.Data.List.ModifyLast
import Lingo.Proofs.LocalCall
import Lingo.Proofs.Styled

/-!
# What a text declares

A text consists of sections: a `script` line and the lines up to the next, and in
these a `handler` line and the lines up to the next (`sections`). What its lines
declare is all in the library that it is assembled to (`Library.Written`): script
by script and handler by handler, with a number for each declared name
(`Names.Resolves`) and an instruction for each mnemonic.

Of what has been read so far, `Block.Written` says this of the closed scripts, and
`Block.Open` of the open block, as far as it has come. A line opens a section, or it
declares something in the last one (`Declares`), or it is an instruction there, or it
says nothing (`Silent`).

* `Assembly.Written.stated`: one statement, with a lemma for each directive;
* `written_of_assemble`: an accepted text;
* `assemble_written`: also, the handlers are called by their positions.
-/

namespace Lingo

open Host (perform)

/-! ## Sections -/

/-- A line that opens a block, and the lines behind it up to the next such line. -/
structure Section where
  header : List Token
  body : List (List Token) := []

/-- A section with one more line. -/
def Section.add (lines : Section) (line : List Token) : Section :=
  { lines with body := lines.body ++ [line] }

/-- Sections after one more line, which opens one or else belongs to the last. -/
def Section.read (directive : String) (done : List Section) (line : List Token) : List Section :=
  if hasDirective directive line then done ++ [{ header := line }]
  else done.modifyLast (·.add line)

/-- The sections of lines, opened by a directive. -/
def sections (directive : String) (lines : List (List Token)) : List Section :=
  lines.foldl (Section.read directive) []

/-- The tokens behind the first word of a line. -/
def argumentsOf (line : List Token) : List Token :=
  (statementOf line).drop 1

/-- Whether a line is one of several directives. -/
def hasOneOf (words : List String) (line : List Token) : Bool :=
  words.any (hasDirective · line)

/-- What lines declare by one of several directives. -/
def declared (words : List String) (lines : List (List Token)) : List Token :=
  lines.flatMap fun line => if hasOneOf words line then argumentsOf line else []

/-- The first word of a line that is no directive. -/
def mnemonicOf (line : List Token) : Option String :=
  match statementOf line with
  | .word word :: _ => if directives.contains (Text.asciiLower word) then none else some word
  | _ => none

theorem sections_snoc (directive : String) (lines : List (List Token)) (line : List Token) :
    sections directive (lines ++ [line]) =
      Section.read directive (sections directive lines) line := by
  rw [sections, List.foldl_append]
  rfl

theorem Section.read_opens {directive : String} {line : List Token}
    (h : hasDirective directive line = true) (done : List Section) :
    read directive done line = done ++ [{ header := line }] :=
  if_pos h

theorem Section.read_other {directive : String} {line : List Token}
    (h : hasDirective directive line = false) (done : List Section) :
    read directive done line = done.modifyLast (·.add line) :=
  if_neg (by rw [h]; exact Bool.false_ne_true)

theorem declared_snoc (words : List String) (lines : List (List Token)) (line : List Token) :
    declared words (lines ++ [line]) =
      declared words lines ++ if hasOneOf words line then argumentsOf line else [] := by
  rw [declared, List.flatMap_append, List.flatMap_singleton]
  rfl

section

variable {α β : Type} {R : α → β → Prop}

theorem forall₂_concat_left {xs : List α} {x : α} {ys : List β}
    (h : List.Forall₂ R (xs ++ [x]) ys) :
    ∃ ys' y, ys = ys' ++ [y] ∧ List.Forall₂ R xs ys' ∧ R x y := by
  induction xs generalizing ys with
  | nil =>
    obtain ⟨y, rest, here, none, rfl⟩ := List.forall₂_cons_left_iff.mp h
    rw [List.forall₂_nil_left_iff.mp none]
    exact ⟨[], y, rfl, .nil, here⟩
  | cons first xs ih =>
    obtain ⟨z, rest, here, others, rfl⟩ := List.forall₂_cons_left_iff.mp h
    obtain ⟨ys', y, rfl, before, last⟩ := ih others
    exact ⟨z :: ys', y, rfl, .cons here before, last⟩

theorem forall₂_modifyLast {f : α → α} {xs : List α} {ys : List β} (h : List.Forall₂ R xs ys)
    (keeps : ∀ x y, R x y → R (f x) y) : List.Forall₂ R (xs.modifyLast f) ys := by
  rcases List.eq_nil_or_concat xs with rfl | ⟨xs, x, rfl⟩
  · exact h
  · rw [List.concat_eq_append] at h ⊢
    obtain ⟨ys, y, rfl, before, last⟩ := forall₂_concat_left h
    rw [List.modifyLast_concat]
    exact List.rel_append before (.cons (keeps x y last) .nil)

end

/-! ## Numbers of names -/

/-- A number that a declared name has in a table: it is the position of an entry
that is the name in any case, and, if it has not wrapped, it resolves to it. -/
def Names.Resolves (names : Names) (token : Token) (id : Int32) : Prop :=
  ∃ name entry i, token = .word name ∧ names.list[i]? = some entry ∧
    Text.sameName entry name = true ∧ id = Int32.ofNat i ∧
    (i < 2147483648 → names.get? id = some entry)

namespace Names

variable {names names' : Names}

theorem get?_ofNat {i : Nat} (small : i < 2147483648) :
    names.get? (Int32.ofNat i) = names.list[i]? := by
  have toInt := toInt_ofNat small
  rw [get?, toInt, if_neg (by omega), Int.toNat_natCast, Array.getElem?_toList]

theorem Resolves.grow (grows : names.list <+: names'.list) {token : Token} {id : Int32}
    (h : names.Resolves token id) : names'.Resolves token id := by
  obtain ⟨name, entry, i, word, here, same, rfl, -⟩ := h
  have here : names'.list[i]? = some entry := by
    obtain ⟨inside, rfl⟩ := List.getElem?_eq_some_iff.mp here
    exact (grows.getElem inside) ▸ List.getElem?_eq_getElem _
  exact ⟨name, entry, i, word, here, same, rfl, fun small => (get?_ofNat small).trans here⟩

theorem resolves_of_find? {name : String} {id : Int32} (found : names.find? name = some id) :
    names.Resolves (.word name) id := by
  rw [find?_eq, Option.map_eq_some_iff] at found
  obtain ⟨i, hi, rfl⟩ := found
  obtain ⟨inside, same, -⟩ := List.findIdx?_eq_some_iff_getElem.mp hi
  have here := List.getElem?_eq_getElem inside
  exact ⟨name, names.list[i], i, rfl, here, same, rfl, fun small => (get?_ofNat small).trans here⟩

theorem resolves_found {added : List String}
    (found : ∀ name ∈ added, (names.find? name).isSome = true) :
    List.Forall₂ names.Resolves (added.map .word) (added.filterMap names.find?) := by
  induction added with
  | nil => exact .nil
  | cons name added ih =>
    obtain ⟨id, hid⟩ := Option.isSome_iff_exists.mp (found name List.mem_cons_self)
    rw [List.filterMap_cons_some hid]
    exact .cons (resolves_of_find? hid) (ih fun other h => found other (List.mem_cons_of_mem _ h))

theorem Interned.resolves {added : List String} {ids : List Int32}
    (h : names.Interned added ids names') :
    List.Forall₂ names'.Resolves (added.map .word) ids := by
  have all := resolves_found fun _ hname => h.isSome hname
  rwa [filterMap_of_map h.found] at all

end Names

/-! ## What is declared, and what is in the library -/

/-- The words that declare properties. -/
def propertyWords : List String :=
  ["property", "properties"]

/-- The words that declare local variables. -/
def localWords : List String :=
  ["local", "locals"]

/-- A handler has all that its section declares. -/
structure Handler.Written (names : Names) (lines : Section) (h : Handler) : Prop where
  /-- The name of the handler is the first of those that its header declares. -/
  named : List.Forall₂ names.Resolves (argumentsOf lines.header) (h.nameId :: h.params)
  locals : List.Forall₂ names.Resolves (declared localWords lines.body) h.locals
  localCount : h.localCount = (declared localWords lines.body).length
  code : h.code.toList.map (fun i => some i.opcode) =
    (lines.body.filterMap mnemonicOf).map Opcode.ofMnemonic?
  size : h.code.size = (lines.body.filterMap mnemonicOf).length

/-- The line that opens a script. -/
def Script.Header (line : List Token) (s : Script) : Prop :=
  ∃ word n kindWord rest, statementOf line = .word word :: .int n :: .word kindWord :: rest ∧
    s.member = Int32.ofInt n ∧ ScriptKind.ofName? kindWord = some s.kind ∧
    (rest = [] ∧ s.name = "" ∨ rest = [.string s.name])

/-- A script has all that its section declares, and the handlers of some sections
within. -/
structure Script.WrittenAs (names : Names) (lines : Section) (blocks : List Section) (s : Script) :
    Prop where
  header : s.Header lines.header
  properties : List.Forall₂ names.Resolves (declared propertyWords lines.body) s.properties
  handlers : List.Forall₂ (Handler.Written names) blocks s.handlers.toList
  positions : ∀ k (hk : k < s.handlers.size), s.handlers[k].vectorPos = Int32.ofNat k

/-- A script has all that its section declares. -/
def Script.Written (names : Names) (lines : Section) (s : Script) : Prop :=
  s.WrittenAs names lines (sections "handler" lines.body)

/-- A library has all that lines declare. -/
structure Library.Written (lib : Library) (lines : List (List Token)) : Prop where
  scripts : List.Forall₂ (Script.Written lib.names) (sections "script" lines) lib.scripts.toList
  members : (lib.scripts.toList.map Script.member).Nodup
  distinct : Distinct Text.sameName lib.names.list

/-- The closed scripts are as `closed` says of their sections, and the open block is as
`opened` says of the last section, if there is one. -/
def Covered (closed : Section → Script → Prop) (opened : Section → Block → Prop)
    (scripts : List Script) (written : List Section) (block : Block) : Prop :=
  block = .top ∧ List.Forall₂ closed written scripts ∨
    ∃ before last, written = before ++ [last] ∧ List.Forall₂ closed before scripts ∧
      opened last block

/-- An open handler has all that its section has declared. -/
structure OpenHandler.Written (names : Names) (lines : Section) (h : OpenHandler) : Prop where
  named : argumentsOf lines.header = (h.name :: h.params).map .word
  nameId : names.find? h.name = some h.nameId
  locals : declared localWords lines.body = h.locals.map .word
  found : ∀ name ∈ h.params ++ h.locals, (names.find? name).isSome = true
  code : h.body.toList.map (fun p => some p.opcode) =
    (lines.body.filterMap mnemonicOf).map Opcode.ofMnemonic?

/-- An open block has all that the section of its script has declared. -/
def Block.Open (names : Names) (last : Section) : Block → Prop
  | .top => False
  | .script s => s.script.Written names last
  | .handler s h => ∃ blocks current, sections "handler" last.body = blocks ++ [current] ∧
      s.script.WrittenAs names last blocks ∧ h.Written names current

/-- The closed scripts and the open block have all that their sections have
declared. -/
def Block.Written (names : Names) (scripts : List Script) (written : List Section)
    (block : Block) : Prop :=
  block = .top ∧ List.Forall₂ (Script.Written names) written scripts ∨
    ∃ closed last, written = closed ++ [last] ∧
      List.Forall₂ (Script.Written names) closed scripts ∧ block.Open names last

/-- What has been read has all that the lines have declared. -/
structure Assembly.Written (a : Assembly) (lines : List (List Token)) : Prop where
  distinct : Distinct Text.sameName a.library.names.list
  members : (a.library.scripts.toList.map Script.member ++ a.block.members).Nodup
  block : a.block.Written a.library.names a.library.scripts.toList (sections "script" lines)

/-! ### More names -/

section

variable {names names' : Names} (grows : names.list <+: names'.list)
include grows

theorem Handler.Written.grow {lines : Section} {h : Handler} (written : h.Written names lines) :
    h.Written names' lines :=
  { written with
    named := written.named.imp fun _ _ => Names.Resolves.grow grows
    locals := written.locals.imp fun _ _ => Names.Resolves.grow grows }

theorem Script.WrittenAs.grow {lines : Section} {blocks : List Section} {s : Script}
    (written : s.WrittenAs names lines blocks) : s.WrittenAs names' lines blocks :=
  { written with
    properties := written.properties.imp fun _ _ => Names.Resolves.grow grows
    handlers := written.handlers.imp fun _ _ => Handler.Written.grow grows }

theorem Script.Written.grow {lines : Section} {s : Script} (written : s.Written names lines) :
    s.Written names' lines :=
  WrittenAs.grow grows written

theorem OpenHandler.Written.grow {lines : Section} {h : OpenHandler}
    (written : h.Written names lines) : h.Written names' lines :=
  { written with
    nameId := Names.find?_mono grows written.nameId
    found := fun name hname => Names.isSome_of_prefix grows (written.found name hname) }

theorem Block.Open.grow {last : Section} {block : Block} (h : block.Open names last) :
    block.Open names' last := by
  cases block with
  | top => exact h
  | script s => exact Script.Written.grow grows h
  | handler s o =>
    obtain ⟨blocks, current, inner, here, inside⟩ := h
    exact ⟨blocks, current, inner, here.grow grows, inside.grow grows⟩

end

/-! ### More lines -/

namespace Covered

variable {closed closed' : Section → Script → Prop} {opened opened' : Section → Block → Prop}
  {scripts : List Script} {lines : List (List Token)} {line : List Token} {block block' : Block}

/-- At the top, all scripts are closed. -/
theorem all (h : Covered closed opened scripts (sections "script" lines) block)
    (top : block = .top) (never : ∀ last, ¬ opened last .top) :
    List.Forall₂ closed (sections "script" lines) scripts := by
  rcases h with ⟨-, all⟩ | ⟨before, last, -, -, here⟩
  · exact all
  · rw [top] at here
    exact absurd here (never last)

/-- Within a script, the last section is open. -/
theorem inside (h : Covered closed opened scripts (sections "script" lines) block)
    (open' : block ≠ .top) :
    ∃ before last, sections "script" lines = before ++ [last] ∧
      List.Forall₂ closed before scripts ∧ opened last block :=
  h.resolve_left fun top => open' top.1

/-- A line of the open script. -/
theorem advance (h : Covered closed opened scripts (sections "script" lines) block)
    (script : hasDirective "script" line = false) (open' : block ≠ .top)
    (keeps : ∀ lines s, closed lines s → closed' lines s)
    (step : ∀ last, opened last block → opened' (last.add line) block') :
    Covered closed' opened' scripts (sections "script" (lines ++ [line])) block' := by
  obtain ⟨before, last, split, all, here⟩ := h.inside open'
  refine .inr ⟨before, last.add line, ?_, all.imp keeps, step last here⟩
  rw [sections_snoc, Section.read_other script, split, List.modifyLast_concat]

/-- A line that says nothing to any script. -/
theorem pass (h : Covered closed opened scripts (sections "script" lines) block)
    (script : hasDirective "script" line = false)
    (closes : ∀ lines s, closed lines s → closed (lines.add line) s)
    (opens : ∀ last, opened last block → opened (last.add line) block) :
    Covered closed opened scripts (sections "script" (lines ++ [line])) block := by
  rcases h with ⟨top, all⟩ | ⟨before, last, split, all, here⟩
  · refine .inl ⟨top, ?_⟩
    rw [sections_snoc, Section.read_other script]
    exact forall₂_modifyLast all closes
  · refine .inr ⟨before, last.add line, ?_, all, opens last here⟩
    rw [sections_snoc, Section.read_other script, split, List.modifyLast_concat]

end Covered

/-- A line that opens no section and has no instruction; it may declare properties
or local variables. -/
structure Declares (line : List Token) (properties slots : Bool) : Prop where
  script : hasDirective "script" line = false
  handler : hasDirective "handler" line = false
  property : hasOneOf propertyWords line = properties
  locals : hasOneOf localWords line = slots
  mnemonic : mnemonicOf line = none

/-- A line that says nothing to the section it belongs to. -/
abbrev Silent (line : List Token) : Prop :=
  Declares line false false

theorem declared_quiet {words : List String} {line : List Token} (h : hasOneOf words line = false)
    (lines : List (List Token)) : declared words (lines ++ [line]) = declared words lines := by
  rw [declared_snoc, h, if_neg Bool.false_ne_true, List.append_nil]

theorem declared_more {words : List String} {line : List Token} (h : hasOneOf words line = true)
    (lines : List (List Token)) :
    declared words (lines ++ [line]) = declared words lines ++ argumentsOf line := by
  rw [declared_snoc, h, if_pos rfl]

theorem mnemonics_quiet {line : List Token} (h : mnemonicOf line = none)
    (lines : List (List Token)) :
    (lines ++ [line]).filterMap mnemonicOf = lines.filterMap mnemonicOf := by
  rw [List.filterMap_append, List.filterMap_cons_none h, List.filterMap_nil, List.append_nil]

section

variable {names : Names} {lines : Section} {line : List Token}

theorem Handler.Written.add {h : Handler} (written : h.Written names lines)
    (locals : hasOneOf localWords line = false) (mnemonic : mnemonicOf line = none) :
    h.Written names (lines.add line) where
  named := written.named
  locals := (declared_quiet locals lines.body).symm ▸ written.locals
  localCount := (declared_quiet locals lines.body).symm ▸ written.localCount
  code := (mnemonics_quiet mnemonic lines.body).symm ▸ written.code
  size := (mnemonics_quiet mnemonic lines.body).symm ▸ written.size

theorem OpenHandler.Written.add {h : OpenHandler} (written : h.Written names lines)
    (locals : hasOneOf localWords line = false) (mnemonic : mnemonicOf line = none) :
    h.Written names (lines.add line) :=
  { written with
    locals := (declared_quiet locals lines.body).trans written.locals
    code := (mnemonics_quiet mnemonic lines.body).symm ▸ written.code }

theorem Script.WrittenAs.add {blocks : List Section} {s : Script}
    (written : s.WrittenAs names lines blocks) (property : hasOneOf propertyWords line = false) :
    s.WrittenAs names (lines.add line) blocks :=
  { written with properties := (declared_quiet property lines.body).symm ▸ written.properties }

/-- The handlers of a script, after a line that says nothing to them. -/
theorem handlers_add {s : Script} (written : s.Written names lines) {properties : Bool}
    (declares : Declares line properties false) :
    List.Forall₂ (Handler.Written names) (sections "handler" (lines.add line).body)
      s.handlers.toList := by
  rw [Section.add, sections_snoc, Section.read_other declares.handler]
  exact forall₂_modifyLast written.handlers fun _ _ here =>
    here.add declares.locals declares.mnemonic

theorem Script.Written.add {s : Script} (written : s.Written names lines) (silent : Silent line) :
    s.Written names (lines.add line) :=
  { WrittenAs.add written silent.property with handlers := handlers_add written silent }

theorem Script.Written.property {s : Script} (written : s.Written names lines)
    (declares : Declares line true false) {ids : List Int32}
    (resolves : List.Forall₂ names.Resolves (argumentsOf line) ids) :
    Script.Written names (lines.add line) { s with properties := s.properties ++ ids } where
  header := written.header
  properties :=
    (declared_more declares.property lines.body).symm ▸ List.rel_append written.properties resolves
  handlers := (handlers_add written declares :)
  positions := written.positions

theorem OpenHandler.Written.declare {h : OpenHandler} (written : h.Written names lines)
    (isLocal : hasOneOf localWords line = true) (mnemonic : mnemonicOf line = none)
    {more : List String} (args : argumentsOf line = more.map .word)
    (found : ∀ name ∈ more, (names.find? name).isSome = true) :
    OpenHandler.Written names (lines.add line) { h with locals := h.locals ++ more } where
  named := written.named
  nameId := written.nameId
  locals := by
    rw [Section.add, declared_more isLocal, written.locals, args, List.map_append]
  found := by
    intro name hname
    rw [← List.append_assoc] at hname
    rcases List.mem_append.mp hname with hname | hname
    · exact written.found name hname
    · exact found name hname
  code := (mnemonics_quiet mnemonic lines.body).symm ▸ written.code

theorem OpenHandler.Written.push {h : OpenHandler} (written : h.Written names lines)
    (locals : hasOneOf localWords line = false) {word : String}
    (mnemonic : mnemonicOf line = some word) {p : Pending}
    (hop : Opcode.ofMnemonic? word = some p.opcode) :
    OpenHandler.Written names (lines.add line) { h with body := h.body.push p } :=
  { written with
    locals := (declared_quiet locals lines.body).trans written.locals
    code := by
      rw [Array.toList_push, List.map_append, written.code, Section.add, List.filterMap_append,
        List.filterMap_cons_some mnemonic, List.filterMap_nil, List.map_append, List.map_singleton,
        List.map_singleton, hop] }

/-- An open handler is laid out with all that its section has declared. -/
theorem OpenHandler.Written.close {h : OpenHandler} (written : h.Written names lines)
    {code : List Instruction} (hc : layout h.body.toList h.labels = .ok code) (position : Int32) :
    Handler.Written names lines
      { nameId := h.nameId
        vectorPos := position
        params := h.params.filterMap names.find?
        locals := h.locals.filterMap names.find?
        code := code.toArray } := by
  have locals := Names.resolves_found fun name hname =>
    written.found name (List.mem_append_right h.params hname)
  have opcodes : code.map (fun i => some i.opcode) =
      (lines.body.filterMap mnemonicOf).map Opcode.ofMnemonic? := by
    have same := congrArg (List.map some) (Layout.opcodes_of_layout hc)
    rw [List.map_map, List.map_map] at same
    exact same.trans written.code
  refine { named := ?_, locals := ?_, localCount := ?_, code := opcodes, size := ?_ }
  · rw [written.named]
    exact .cons (Names.resolves_of_find? written.nameId)
      (Names.resolves_found fun name hname => written.found name (List.mem_append_left _ hname))
  · rw [written.locals]
    exact locals
  · rw [written.locals]
    exact locals.length_eq.symm
  · have length := congrArg List.length opcodes
    rw [List.length_map, List.length_map] at length
    exact length

/-- Open blocks keep what they have when a line says nothing. -/
theorem Block.Open.add {block : Block} (h : block.Open names lines) (silent : Silent line) :
    block.Open names (lines.add line) := by
  cases block with
  | top => exact h
  | script s => exact Script.Written.add h silent
  | handler s o =>
    obtain ⟨blocks, current, inner, here, inside⟩ := h
    refine ⟨blocks, current.add line, ?_, here.add silent.property,
      inside.add silent.locals silent.mnemonic⟩
    rw [Section.add, sections_snoc, Section.read_other silent.handler, inner,
      List.modifyLast_concat]

end

/-! ### What lines are -/

section

variable {line args : List Token} {word : String}

theorem silent_of_nil (h : statementOf line = []) : Silent line := by
  constructor <;> simp only [hasOneOf, propertyWords, localWords, hasDirective, mnemonicOf, h,
    List.any_cons, List.any_nil, Bool.or_false]

theorem hasOneOf_word (h : statementOf line = .word word :: args) (words : List String) :
    hasOneOf words line = words.contains (Text.asciiLower word) := by
  rw [hasOneOf, List.contains_eq_any_beq]
  simp only [hasDirective_word h]

theorem mnemonicOf_directive (h : statementOf line = .word word :: args)
    (directive : Text.asciiLower word ∈ directives) : mnemonicOf line = none := by
  rw [mnemonicOf, h]
  exact if_pos (List.contains_iff_mem.mpr directive)

/-- A line with an instruction is none of some directives. -/
theorem hasOneOf_mnemonic (h : statementOf line = .word word :: args) {op : Opcode}
    (hop : Opcode.ofMnemonic? word = some op) {words : List String}
    (known : ∀ d ∈ words, d ∈ directives) : hasOneOf words line = false := by
  refine (hasOneOf_word h words).trans (Bool.eq_false_iff.mpr fun one => ?_)
  rw [ofMnemonic?_directive (known _ (List.contains_iff_mem.mp one))] at hop
  cases hop

/-- The directives that open no section, and what they declare. -/
theorem declares_of_directive {words : List String} {properties slots : Bool}
    (kind : (words, properties, slots) ∈ [(propertyWords, true, false),
      (localWords, false, true), (["library", "end"], false, false)])
    (h : statementOf line = .word word :: args) (directive : Text.asciiLower word ∈ words) :
    Declares line properties slots := by
  have all : ∀ k ∈ [(propertyWords, true, false), (localWords, false, true),
      (["library", "end"], false, false)], ∀ d ∈ k.1, (d == "script") = false ∧
        (d == "handler") = false ∧ propertyWords.contains d = k.2.1 ∧
        localWords.contains d = k.2.2 ∧ d ∈ directives := by
    decide
  obtain ⟨script, handler, property, locals, known⟩ := all _ kind _ directive
  exact ⟨(hasDirective_word h _).trans script, (hasDirective_word h _).trans handler,
    (hasOneOf_word h _).trans property, (hasOneOf_word h _).trans locals,
    mnemonicOf_directive h known⟩

theorem silent_of_directive (h : statementOf line = .word word :: args)
    (directive : Text.asciiLower word ∈ ["library", "end"]) : Silent line :=
  declares_of_directive (by decide) h directive

end

/-! ### Accepted lines -/

namespace Assembly

variable {a a' : Assembly} {number : Nat} {line : List Token} {lines : List (List Token)}

theorem Written.start : Written {} [] where
  distinct := List.Pairwise.nil
  members := List.nodup_nil
  block := .inl ⟨rfl, .nil⟩

/-- At the top, all scripts are closed. -/
theorem Written.closed (h : a.Written lines) (block : a.block = .top) :
    List.Forall₂ (Script.Written a.library.names) (sections "script" lines)
      a.library.scripts.toList :=
  Covered.all h.block block fun _ => id

/-- Within a script, the last section is open. -/
theorem Written.opened (h : a.Written lines) (block : a.block ≠ .top) :
    ∃ closed last, sections "script" lines = closed ++ [last] ∧
      List.Forall₂ (Script.Written a.library.names) closed a.library.scripts.toList ∧
      a.block.Open a.library.names last :=
  Covered.inside h.block block

theorem Written.labelled (h : a.Written lines) {label : Option String} (hl : Labelled a label a') :
    a'.Written lines := by
  cases hl with
  | unlabelled => exact h
  | label block new =>
    have members := h.members
    obtain ⟨closed, last, split, before, opened⟩ := h.opened (by rw [block]; exact nofun)
    rw [block] at members opened
    obtain ⟨blocks, current, inner, here, inside⟩ := opened
    exact ⟨h.distinct, members, .inr ⟨closed, last, split, before, blocks, current, inner, here,
      { inside with }⟩⟩

/-- A line of the open script, which interns names and changes the open block. -/
theorem Written.advance (h : a.Written lines) (script : hasDirective "script" line = false)
    (open' : a.block ≠ .top) {names : Names} {added : List String} {ids : List Int32}
    (interned : a.library.names.Interned added ids names) {block : Block}
    (members : block.members = a.block.members)
    (step : ∀ last, a.block.Open names last → block.Open names (last.add line)) :
    Written { library := { a.library with names }, block } (lines ++ [line]) where
  distinct := interned.distinct h.distinct
  members := by
    rw [members]
    exact h.members
  block := Covered.advance h.block script open' (fun _ _ => Script.Written.grow interned.grows)
    fun last opened => step last (Block.Open.grow interned.grows opened)

/-- A line that says nothing. -/
theorem Written.pass (h : a.Written lines) (silent : Silent line) :
    a.Written (lines ++ [line]) :=
  { h with
    block := Covered.pass h.block silent.script (fun _ _ here => Script.Written.add here silent)
      fun _ opened => Block.Open.add opened silent }

/-- A line in a handler that opens nothing. -/
theorem Written.within (h : a.Written lines) {s s' : OpenScript} {o o' : OpenHandler}
    (block : a.block = .handler s o) (script : hasDirective "script" line = false)
    (handler : hasDirective "handler" line = false)
    (property : hasOneOf propertyWords line = false) {names : Names} {added : List String}
    {ids : List Int32} (interned : a.library.names.Interned added ids names)
    (kept : s'.script = { s.script with literals := s'.script.literals })
    (inside : ∀ current : Section, o.Written names current → o'.Written names (current.add line)) :
    Written { library := { a.library with names }, block := .handler s' o' } (lines ++ [line]) := by
  refine h.advance script (by rw [block]; exact nofun) interned ?_ fun last opened => ?_
  · rw [block, Block.members, Block.members, kept]
  · rw [block] at opened
    obtain ⟨blocks, current, inner, here, open'⟩ := opened
    refine ⟨blocks, current.add line, ?_, ?_, inside current open'⟩
    · rw [Section.add, sections_snoc, Section.read_other handler, inner, List.modifyLast_concat]
    · have more := here.add property
      rw [kept]
      exact { more with }

section

variable {word : String} {args : List Token} (hst : statementOf line = .word word :: args)
include hst

theorem Written.library (h : a.Written lines) (directive : Text.asciiLower word = "library")
    {lib : Library} (names : lib.names = a.library.names)
    (scripts : lib.scripts = a.library.scripts) :
    Written { a with library := lib } (lines ++ [line]) := by
  have passed := h.pass (silent_of_directive hst (by rw [directive]; decide))
  refine ⟨?_, ?_, ?_⟩
  · rw [names]
    exact passed.distinct
  · rw [scripts]
    exact passed.members
  · rw [names, scripts]
    exact passed.block

theorem Written.script (h : a.Written lines) (directive : Text.asciiLower word = "script")
    (block : a.block = .top) {s : Script} (new : a.library.scriptAt? s.member = none)
    (header : s.Header line) (properties : s.properties = []) (handlers : s.handlers = #[]) :
    Written { a with block := .script ⟨number, s⟩ } (lines ++ [line]) := by
  have opens : hasDirective "script" line = true :=
    (hasDirective_word hst _).trans (beq_iff_eq.mpr directive)
  have members := h.members
  rw [block] at members
  refine ⟨h.distinct, ?_, ?_⟩
  · rw [Block.members, List.append_nil] at members
    exact List.nodup_append.mpr ⟨members, List.pairwise_singleton _ _, fun m hm k hk same =>
      a.library.not_mem_members new (List.mem_singleton.mp hk ▸ same ▸ hm)⟩
  · rw [sections_snoc, Section.read_opens opens]
    refine .inr ⟨_, _, rfl, h.closed block, header, ?_, ?_, fun k hk => ?_⟩
    · rw [properties]
      exact .nil
    · rw [handlers]
      exact .nil
    · rw [handlers] at hk
      exact absurd hk (Nat.not_lt_zero k)

theorem Written.property (h : a.Written lines) (directive : Text.asciiLower word ∈ propertyWords)
    {s : OpenScript} (block : a.block = .script s) {names : List String}
    (declares : args = names.map .word) :
    Written
      { library := { a.library with names := (a.library.names.internAll names).2 }
        block := .script { s with script := { s.script with
          properties := s.script.properties ++ (a.library.names.internAll names).1 } } }
      (lines ++ [line]) := by
  have declaresProperties : Declares line true false :=
    declares_of_directive (by decide) hst directive
  have interned := Names.interned_internAll a.library.names names
  refine h.advance declaresProperties.script (by rw [block]; exact nofun) interned ?_
    fun last opened => ?_
  · rw [block]
    rfl
  · rw [block] at opened
    refine Script.Written.property opened declaresProperties ?_
    rw [argumentsOf, hst, List.drop_succ_cons, List.drop_zero, declares]
    exact interned.resolves

theorem Written.handler (h : a.Written lines) (directive : Text.asciiLower word = "handler")
    {s : OpenScript} (block : a.block = .script s) {name : String} {params : List String}
    (declares : args = (name :: params).map .word) :
    Written
      { library := { a.library with
          names := ((a.library.names.intern name).2.internAll params).2 }
        block := .handler s
          { line := number, name, nameId := (a.library.names.intern name).1, params } }
      (lines ++ [line]) := by
  have interned : a.library.names.Interned (name :: params)
      ((a.library.names.intern name).1 ::
        ((a.library.names.intern name).2.internAll params).1)
      ((a.library.names.intern name).2.internAll params).2 :=
    Names.interned_internAll a.library.names (name :: params)
  have opens : hasDirective "handler" line = true :=
    (hasDirective_word hst _).trans (beq_iff_eq.mpr directive)
  have other : hasDirective "script" line = false :=
    (hasDirective_word hst _).trans (by rw [directive]; decide)
  have property : hasOneOf propertyWords line = false :=
    (hasOneOf_word hst _).trans (by rw [directive]; decide)
  refine h.advance other (by rw [block]; exact nofun) interned ?_ fun last opened => ?_
  · rw [block]
    rfl
  · rw [block] at opened
    refine ⟨sections "handler" last.body, { header := line }, ?_,
      Script.WrittenAs.add opened property, ?_, (List.cons.inj interned.found).1, rfl,
      fun other hother => ?_, rfl⟩
    · rw [Section.add, sections_snoc, Section.read_opens opens]
    · rw [argumentsOf, hst, List.drop_succ_cons, List.drop_zero, declares]
    · rw [List.append_nil] at hother
      exact interned.isSome (List.mem_cons_of_mem name hother)

theorem Written.locals (h : a.Written lines) (directive : Text.asciiLower word ∈ localWords)
    {s : OpenScript} {o : OpenHandler} (block : a.block = .handler s o) {names : List String}
    (declares : args = names.map .word) :
    Written
      { library := { a.library with names := (a.library.names.internAll names).2 }
        block := .handler s { o with locals := o.locals ++ names } }
      (lines ++ [line]) := by
  have declaresLocals : Declares line false true :=
    declares_of_directive (by decide) hst directive
  have interned := Names.interned_internAll a.library.names names
  refine h.within block declaresLocals.script declaresLocals.handler declaresLocals.property
    interned rfl fun current open' => open'.declare declaresLocals.locals declaresLocals.mnemonic ?_
      fun name hname => interned.isSome hname
  rw [argumentsOf, hst, List.drop_succ_cons, List.drop_zero, declares]

theorem Written.instruction (h : a.Written lines) {s s' : OpenScript} {o : OpenHandler}
    (block : a.block = .handler s o) {p : Pending} (hop : Opcode.ofMnemonic? word = some p.opcode)
    {names : Names} {added : List String} {ids : List Int32}
    (interned : a.library.names.Interned added ids names)
    (kept : s'.script = { s.script with literals := s'.script.literals }) :
    Written
      { library := { a.library with names }, block := .handler s' { o with body := o.body.push p } }
      (lines ++ [line]) := by
  have mnemonic : mnemonicOf line = some word := by
    rw [mnemonicOf, hst]
    refine if_neg fun known => ?_
    rw [ofMnemonic?_directive (List.contains_iff_mem.mp known)] at hop
    cases hop
  refine h.within block (hasDirective_mnemonic hst hop (by decide))
    (hasDirective_mnemonic hst hop (by decide)) (hasOneOf_mnemonic hst hop (by decide)) interned kept
    fun current open' => open'.push (hasOneOf_mnemonic hst hop (by decide)) mnemonic hop

theorem Written.endHandler (h : a.Written lines) (directive : Text.asciiLower word = "end")
    {s : OpenScript} {o : OpenHandler} (block : a.block = .handler s o) {code : List Instruction}
    (hc : layout o.body.toList o.labels = .ok code) :
    Written
      { a with block := .script { s with script := { s.script with
          handlers := s.script.handlers.push
            { nameId := o.nameId
              vectorPos := Int32.ofNat s.script.handlers.size
              params := o.params.filterMap a.library.names.find?
              locals := o.locals.filterMap a.library.names.find?
              code := code.toArray } } } }
      (lines ++ [line]) := by
  have silent := silent_of_directive hst (by rw [directive]; decide)
  refine h.advance silent.script (by rw [block]; exact nofun) (.nil a.library.names) ?_
    fun last opened => ?_
  · rw [block]
    rfl
  · rw [block] at opened
    obtain ⟨blocks, current, inner, here, inside⟩ := opened
    have more := here.add silent.property
    refine { more with handlers := ?_, positions := fun k hk => ?_ }
    · rw [Section.add, sections_snoc, Section.read_other silent.handler, inner,
        List.modifyLast_concat, Array.toList_push]
      exact List.rel_append here.handlers
        (.cons ((inside.add silent.locals silent.mnemonic).close hc _) .nil)
    · rw [Array.getElem_push]
      split
      · exact here.positions k _
      · rename_i last
        rw [Array.size_push] at hk
        rw [show k = s.script.handlers.size by omega]

theorem Written.endScript (h : a.Written lines) (directive : Text.asciiLower word = "end")
    {s : OpenScript} (block : a.block = .script s) :
    Written
      { library := { a.library with scripts := a.library.scripts.push s.script }, block := .top }
      (lines ++ [line]) := by
  have passed := h.pass (silent_of_directive hst (by rw [directive]; decide))
  have members := passed.members
  obtain ⟨closed, last, split, before, here⟩ := passed.opened (by rw [block]; exact nofun)
  rw [block] at members here
  refine ⟨passed.distinct, ?_, .inl ⟨rfl, ?_⟩⟩
  · rw [Block.members, Array.toList_push, List.map_append, List.append_nil]
    exact members
  · rw [split, Array.toList_push]
    exact List.rel_append before (.cons here .nil)

end

theorem intOperand_ok {token : Token} {n : Int32} (h : intOperand number token = .ok n) :
    ∃ m, token = .int m ∧ n = Int32.ofInt m := by
  unfold intOperand at h
  split at h
  · split at h
    · cases h
      exact ⟨_, rfl, rfl⟩
    · cases h
  · cases h

/-- Reading an operand interns at most its symbol. -/
theorem operand_interned {lib lib' : Library} {s s' : OpenScript} {o : OpenHandler} {op : Opcode}
    {token : Token} {operand : Operand}
    (ho : Assembly.operand lib s o number op token = .ok (operand, lib', s')) :
    ∃ added ids, lib.names.Interned added ids lib'.names ∧
      ∀ name ∈ added, token = .symbol name := by
  have same : lib' = lib → ∃ added ids, lib.names.Interned added ids lib'.names ∧
      ∀ name ∈ added, token = .symbol name := by
    rintro rfl
    exact ⟨[], [], .nil _, nofun⟩
  unfold Assembly.operand at ho
  split at ho
  · cases ho
    exact same rfl
  · rename_i name
    cases ho
    exact ⟨_, _, Names.interned_intern lib.names name, by simp⟩
  · split at ho
    · split at ho
      · obtain ⟨literal, -, ho⟩ := bind_eq_ok.mp ho
        cases ho
        exact same rfl
      · cases ho
    · split at ho
      · cases ho
        exact same rfl
      · cases ho
    all_goals
      obtain ⟨n, -, ho⟩ := bind_eq_ok.mp ho
      cases ho
      exact same rfl

theorem Written.stated (h : a.Written lines) (hs : Stated number a (statementOf line) a') :
    a'.Written (lines ++ [line]) := by
  generalize hst : statementOf line = st at hs
  cases hs with
  | nothing => exact h.pass (silent_of_nil hst)
  | library directive block first hn settings =>
    obtain ⟨-, names, scripts⟩ := librarySettings_keep settings
    exact h.library hst directive names scripts
  | script directive block hn hk new named =>
    obtain ⟨m, rfl, rfl⟩ := intOperand_ok hn
    exact h.script hst directive block new ⟨_, m, _, _, hst, rfl, hk, named⟩ rfl rfl
  | property directive block hd =>
    refine h.property hst ?_ block (declaredNames_ok hd)
    rcases directive with directive | directive <;> rw [directive] <;> decide
  | handler directive block hd => exact h.handler hst directive block (declaredNames_ok hd)
  | locals directive block hd =>
    refine h.locals hst ?_ block (declaredNames_ok hd)
    rcases directive with directive | directive <;> rw [directive] <;> decide
  | endHandler directive block hc => exact h.endHandler hst directive block hc
  | endScript directive block => exact h.endScript hst directive block
  | «instruction» block hop takes ho =>
    obtain ⟨library, script, -⟩ := operand_keep ho
    obtain ⟨added, ids, interned, -⟩ := operand_interned ho
    rw [library]
    exact h.instruction hst block hop interned (congrArg OpenScript.script script)
  | plain block hop takes => exact h.instruction hst block hop (.nil a.library.names) rfl

/-- An accepted line drops nothing. -/
theorem Written.feed (h : a.Written lines) {text : List Char} (hf : a.feed number text = .ok a') :
    a'.Written (lines ++ [lineTokens text]) := by
  obtain ⟨tokens, ht, a₁, hl, hs⟩ := feed_cases hf
  rw [lineTokens, ht]
  exact (h.labelled hl).stated hs

end Assembly

/-! ## Accepted texts -/

/-- An accepted text drops nothing. -/
theorem written_of_assemble {text : String} {lib : Library} (accepted : assemble text = .ok lib) :
    lib.Written ((textLines text).map lineTokens) := by
  obtain ⟨a, read, finished⟩ := bind_eq_ok.mp accepted
  have written : a.Written ((textLines text).map lineTokens) := by
    refine Assembly.feedAll_induction (P := fun texts a => a.Written (texts.map lineTokens))
      read .start fun before a line a' _ written fed => ?_
    rw [List.map_append]
    exact written.feed fed
  have members := written.members
  unfold Assembly.finish at finished
  split at finished
  · rename_i top
    cases finished
    rw [top, Block.members, List.append_nil] at members
    exact ⟨written.closed top, members, written.distinct⟩
  · cases finished
  · cases finished

/-- All that an accepted text declares is in its library: scripts, handlers, names
and instructions. A local call by the position of a handler runs it. -/
theorem assemble_written {text : String} {lib : Library} (accepted : assemble text = .ok lib) :
    lib.Written ((textLines text).map lineTokens) ∧
      ∀ s ∈ lib.scripts, ∀ k (hk : k < s.handlers.size), k < 4294967296 →
        ∀ (c : Calls) (i : Instruction) (m : Machine) (top : Frame), i.opcode = .localCall →
          i.argument = Int32.ofNat k → m.top? = some top → top.script = s →
          perform (Step.execute c i) m =
            perform (Step.callWith fun args =>
              c.activate ⟨top.library, s, k, hk⟩ args m.receiver) m := by
  have written := written_of_assemble accepted
  refine ⟨written, fun s hs k hk small c i m top call position frame script => ?_⟩
  obtain ⟨j, hj, rfl⟩ := List.getElem_of_mem (Array.mem_toList_iff.mpr hs)
  have here := written.scripts.get (by rw [written.scripts.length_eq]; exact hj) hj
  exact execute_localCall hk small here.positions frame script c call position

/-- Two scripts, one of them with properties around its two handlers; `Main` is the
name of a handler already, in other case. -/
def counterText : String :=
  "script 1 movie \"Counter\"\nproperty count, total\nhandler main\nlocal i\n" ++
  "PUSH_ARG_LIST 0\nLOCAL_CALL 1\nSET_LOCAL i\nRET\nend\n" ++
  "handler next n\n@here: GET_PARAM n\nRET\nend\nproperty Main\nend\nscript 2 parent\nend\n"

theorem assemble_written_counter :
    ∃ lib, assemble counterText = .ok lib ∧ lib.scripts.size = 2 ∧
      lib.Written ((textLines counterText).map lineTokens) := by
  have accepted : (assemble counterText).toOption.map (·.scripts.size) = some 2 := by
    decide +kernel
  cases read : assemble counterText with
  | error e =>
    rw [read] at accepted
    cases accepted
  | ok lib =>
    rw [read] at accepted
    exact ⟨lib, rfl, Option.some.inj accepted, (assemble_written read).1⟩

end Lingo
