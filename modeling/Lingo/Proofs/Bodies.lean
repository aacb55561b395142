import Mathlib.Data.List.Forall2
import Lingo.Proofs.Assembling
import Lingo.Proofs.Relaxation

/-!
# Handlers as they are written

The body of a handler in a text are the lines from behind its `handler` line to
its `end` (`handlerBodies`). What the assembler has gathered when it comes to
that `end` is what these lines spell: an instruction for each line that has one,
with the label that it jumps to, and for each label the number of instructions
before its line (`Spells`).

`assemble_spelled`: the handlers of an assembled library are, one by one, those
that its text spells, laid out.
-/

namespace Lingo

/-! ## Bodies -/

/-- The tokens of a line; a line that cannot be split has none. -/
def lineTokens (text : List Char) : List Token :=
  match Token.tokenize text with
  | .ok tokens => tokens
  | .error _ => []

/-- Whether the statement of a line is a directive. -/
def hasDirective (directive : String) (tokens : List Token) : Bool :=
  match statementOf tokens with
  | .word word :: _ => Text.asciiLower word == directive
  | _ => false

/-- The operation of a line that has an instruction. -/
def opcodeOf (tokens : List Token) : Option Opcode :=
  match statementOf tokens with
  | .word word :: _ => Opcode.ofMnemonic? word
  | _ => none

/-- How many lines have an instruction. -/
def instructionCount (lines : List (List Token)) : Nat :=
  lines.countP fun tokens => (opcodeOf tokens).isSome

/-- The bodies of the handlers that have ended, and that of the open one. -/
structure Bodies where
  ended : List (List (List Token)) := []
  current : Option (List (List Token)) := none

/-- The bodies after one more line. The line that ends a handler belongs to its
body, since a label may stand before `end`. -/
def Bodies.read (bodies : Bodies) (tokens : List Token) : Bodies :=
  match bodies.current with
  | none => if hasDirective "handler" tokens then { bodies with current := some [] } else bodies
  | some body =>
    if hasDirective "end" tokens then ⟨bodies.ended ++ [body ++ [tokens]], none⟩
    else { bodies with current := some (body ++ [tokens]) }

/-- The bodies of the handlers of a text. -/
def handlerBodies (text : String) : List (List (List Token)) :=
  (((textLines text).map lineTokens).foldl Bodies.read {}).ended

/-- All handlers of a library, in the order in which they are written. -/
def Library.handlers (lib : Library) : List Handler :=
  lib.scripts.toList.flatMap (·.handlers.toList)

/-! ## Directives and mnemonics -/

/-- The words that are no instructions. -/
def directives : List String :=
  ["library", "script", "property", "properties", "handler", "local", "locals", "end"]

/-- Directives and mnemonics differ in more than case. -/
theorem keywords_nodup :
    ((directives ++ Opcode.all.map Opcode.mnemonic).map
      fun word => word.toList.map Char.toLower).Nodup := by
  decide +kernel

theorem ofMnemonic?_mnemonic (op : Opcode) (h : op ≠ .invalid) :
    Opcode.ofMnemonic? op.mnemonic = some op := by
  have apart := keywords_nodup
  rw [List.map_append, List.map_map, List.nodup_append] at apart
  obtain ⟨before, after, split⟩ := List.append_of_mem (Opcode.mem_all h)
  rw [Opcode.ofMnemonic?, split, List.find?_append]
  have none : before.find? (fun other => Text.sameName other.mnemonic op.mnemonic) = none := by
    refine List.find?_eq_none.mpr fun other hother same => ?_
    have distinct := apart.2.1
    rw [split, List.map_append, List.nodup_append] at distinct
    refine distinct.2.2 _ (List.mem_map_of_mem hother) _
      (List.mem_map_of_mem List.mem_cons_self) ?_
    exact String.ofList_injective (Text.sameName_iff.mp same)
  rw [none, Option.none_or]
  exact List.find?_cons_of_pos (Text.sameName_refl op.mnemonic)

/-- No mnemonic is a directive. -/
theorem ofMnemonic?_directive {word : String} (h : Text.asciiLower word ∈ directives) :
    Opcode.ofMnemonic? word = none := by
  have apart := keywords_nodup
  rw [List.map_append, List.nodup_append] at apart
  have lower : ∀ d ∈ directives, Text.asciiLower d = d := by decide +kernel
  refine List.find?_eq_none.mpr fun op hop same => ?_
  refine apart.2.2 _ (List.mem_map_of_mem h) _
    (List.mem_map_of_mem (List.mem_map_of_mem hop)) ?_
  refine String.ofList_injective ((lower _ h).trans ?_)
  exact (Text.sameName_iff.mp same).symm

/-! ### The first word of a line -/

section

variable {line args : List Token} {word : String}

theorem hasDirective_nil (h : statementOf line = []) (directive : String) :
    hasDirective directive line = false := by
  rw [hasDirective, h]

theorem hasDirective_word (h : statementOf line = .word word :: args) (directive : String) :
    hasDirective directive line = (Text.asciiLower word == directive) := by
  rw [hasDirective, h]

theorem opcodeOf_nil (h : statementOf line = []) : opcodeOf line = none := by
  rw [opcodeOf, h]

theorem opcodeOf_word (h : statementOf line = .word word :: args) :
    opcodeOf line = Opcode.ofMnemonic? word := by
  rw [opcodeOf, h]

/-- A line with an instruction is no directive. -/
theorem hasDirective_mnemonic (h : statementOf line = .word word :: args) {op : Opcode}
    (hop : Opcode.ofMnemonic? word = some op) {directive : String}
    (known : directive ∈ directives) : hasDirective directive line = false := by
  refine (hasDirective_word h directive).trans (beq_false_of_ne ?_)
  rintro rfl
  rw [ofMnemonic?_directive known] at hop
  cases hop

end

/-! ## What lines spell -/

/-- What the assembler gathers of the lines of a body. -/
structure Spells (lines : List (List Token)) (body : List Pending) (labels : Labels) : Prop where
  size : body.length = instructionCount lines
  origin : ∀ i p, body[i]? = some p → ∃ before line after, lines = before ++ line :: after ∧
    instructionCount before = i ∧ opcodeOf line = some p.opcode
  absent : ∀ p ∈ body, p.opcode.takesArgument = false → p.operand = .absent
  jump : ∀ before line after word op name, lines = before ++ line :: after →
    statementOf line = [.word word, .label name] → Opcode.ofMnemonic? word = some op →
    ∃ n, body[instructionCount before]? = some ⟨n, op, .label name⟩
  place : ∀ before line after name, lines = before ++ line :: after →
    labelOf line = some name → labels.lookup name = some (instructionCount before)
  defined : ∀ name target, labels.lookup name = some target →
    ∃ before line after, lines = before ++ line :: after ∧ labelOf line = some name

theorem append_cons_eq_snoc {α : Type} {xs before after : List α} {x y : α}
    (h : xs ++ [x] = before ++ y :: after) :
    before = xs ∧ y = x ∧ after = [] ∨ ∃ rest, after = rest ++ [x] ∧ xs = before ++ y :: rest := by
  rcases List.eq_nil_or_concat after with rfl | ⟨rest, z, rfl⟩
  · obtain ⟨rfl, same⟩ := List.append_inj' h rfl
    cases same
    exact .inl ⟨rfl, rfl, rfl⟩
  · rw [List.concat_eq_append] at h ⊢
    rw [← List.cons_append, ← List.append_assoc] at h
    obtain ⟨rfl, same⟩ := List.append_inj' h rfl
    cases same
    exact .inr ⟨rest, rfl, rfl⟩

theorem instructionCount_snoc (lines : List (List Token)) (tokens : List Token) :
    instructionCount (lines ++ [tokens]) =
      instructionCount lines + if (opcodeOf tokens).isSome then 1 else 0 := by
  rw [instructionCount, List.countP_append, List.countP_singleton]
  rfl

theorem ofMnemonic?_ne_invalid {word : String} {op : Opcode}
    (h : Opcode.ofMnemonic? word = some op) : op ≠ .invalid := by
  rintro rfl
  exact absurd (List.mem_of_find?_eq_some h) (by decide +kernel)

theorem opcodeOf_eq_some {tokens : List Token} {op : Opcode} (h : opcodeOf tokens = some op) :
    ∃ word args, statementOf tokens = .word word :: args ∧ Opcode.ofMnemonic? word = some op := by
  unfold opcodeOf at h
  split at h
  · rename_i word args here
    exact ⟨word, args, here, h⟩
  · cases h

/-- The operations of bodies have mnemonics. -/
theorem Spells.opcode {lines : List (List Token)} {body : List Pending} {labels : Labels}
    (h : Spells lines body labels) : ∀ p ∈ body, p.opcode ≠ .invalid := by
  intro p hp
  obtain ⟨i, here⟩ := List.getElem?_of_mem hp
  obtain ⟨-, line, -, -, -, opcode⟩ := h.origin i p here
  obtain ⟨word, args, -, mnemonic⟩ := opcodeOf_eq_some opcode
  exact ofMnemonic?_ne_invalid mnemonic

theorem Spells.nil : Spells [] [] [] where
  size := rfl
  origin := fun _ _ h => by cases h
  absent := fun _ h => absurd h List.not_mem_nil
  jump := fun _ _ _ _ _ _ h => absurd h.symm (List.append_ne_nil_of_right_ne_nil _ nofun)
  place := fun _ _ _ _ h => absurd h.symm (List.append_ne_nil_of_right_ne_nil _ nofun)
  defined := fun _ _ h => nomatch h

/-- The labels after a line. -/
def Labels.after (labels : Labels) (size : Nat) (tokens : List Token) : Labels :=
  labels ++ ((labelOf tokens).map (·, size)).toList

theorem Labels.lookup_after {labels : Labels} {size : Nat} {tokens : List Token}
    (new : ∀ name, labelOf tokens = some name → labels.lookup name = none) (name : String) :
    (labels.after size tokens).lookup name =
      if labelOf tokens = some name then some size else labels.lookup name := by
  unfold Labels.after
  cases hl : labelOf tokens with
  | none => simp
  | some label =>
    rw [Option.map_some, Option.toList_some, List.lookup_append]
    by_cases same : label = name
    · subst same
      simp [new _ hl]
    · have other : (name == label) = false := beq_false_of_ne (Ne.symm same)
      simp [List.lookup_cons, other, same]

/-- One more line adds its label, at the instructions before it, and its
instruction. -/
theorem Spells.snoc {lines : List (List Token)} {body added : List Pending} {labels : Labels}
    {tokens : List Token} (h : Spells lines body labels)
    (new : ∀ name, labelOf tokens = some name → labels.lookup name = none)
    (size : added.length = if (opcodeOf tokens).isSome then 1 else 0)
    (opcode : ∀ p ∈ added, opcodeOf tokens = some p.opcode)
    (absent : ∀ p ∈ added, p.opcode.takesArgument = false → p.operand = .absent)
    (jump : ∀ word op name, statementOf tokens = [.word word, .label name] →
      Opcode.ofMnemonic? word = some op → ∃ n, added[0]? = some ⟨n, op, .label name⟩) :
    Spells (lines ++ [tokens]) (body ++ added) (labels.after body.length tokens) where
  size := by rw [List.length_append, instructionCount_snoc, h.size, size]
  origin := by
    intro i p here
    rcases Nat.lt_or_ge i body.length with inside | behind
    · rw [List.getElem?_append_left inside] at here
      obtain ⟨before, line, after, inner, count, hop⟩ := h.origin i p here
      refine ⟨before, line, after ++ [tokens], ?_, count, hop⟩
      rw [inner, List.append_assoc, List.cons_append]
    · rw [List.getElem?_append_right behind] at here
      have last : i = body.length := by
        have inside := (List.getElem?_eq_some_iff.mp here).1
        split at size <;> omega
      refine ⟨lines, tokens, [], rfl, ?_, opcode p (List.mem_of_getElem? here)⟩
      rw [last, h.size]
  absent := by
    intro p hp
    rcases List.mem_append.mp hp with hp | hp
    · exact h.absent p hp
    · exact absent p hp
  jump := by
    intro before line after word op name split hs hop
    rcases append_cons_eq_snoc split with ⟨rfl, rfl, -⟩ | ⟨rest, -, inner⟩
    · obtain ⟨n, here⟩ := jump word op name hs hop
      refine ⟨n, ?_⟩
      rw [List.getElem?_append_right (Nat.le_of_eq h.size), h.size, Nat.sub_self]
      exact here
    · obtain ⟨n, here⟩ := h.jump before line rest word op name inner hs hop
      refine ⟨n, ?_⟩
      rw [List.getElem?_append_left (List.getElem?_eq_some_iff.mp here).1]
      exact here
  place := by
    intro before line after name split hl
    rw [Labels.lookup_after new]
    rcases append_cons_eq_snoc split with ⟨rfl, rfl, -⟩ | ⟨rest, -, inner⟩
    · rw [if_pos hl, h.size]
    · have earlier := h.place before line rest name inner hl
      rw [if_neg, earlier]
      intro again
      rw [new name again] at earlier
      cases earlier
  defined := by
    intro name target found
    rw [Labels.lookup_after new] at found
    split at found
    · rename_i here
      exact ⟨lines, tokens, [], rfl, here⟩
    · obtain ⟨before, line, after, inner, hl⟩ := h.defined name target found
      refine ⟨before, line, after ++ [tokens], ?_, hl⟩
      rw [inner, List.append_assoc, List.cons_append]

/-- A line without an instruction adds its label only. -/
theorem Spells.skip {lines : List (List Token)} {body : List Pending} {labels : Labels}
    {tokens : List Token} (h : Spells lines body labels)
    (new : ∀ name, labelOf tokens = some name → labels.lookup name = none)
    (none : opcodeOf tokens = none) :
    Spells (lines ++ [tokens]) body (labels.after body.length tokens) := by
  have jump : ∀ word op name, statementOf tokens = [.word word, .label name] →
      Opcode.ofMnemonic? word = some op →
      ∃ n, ([] : List Pending)[0]? = some ⟨n, op, .label name⟩ := by
    intro word op name hst hop
    rw [opcodeOf_word hst] at none
    exact absurd (none.symm.trans hop) (Option.some_ne_none op).symm
  have whole := h.snoc new (by rw [none]; rfl) (fun p hp => absurd hp List.not_mem_nil)
    (fun p hp => absurd hp List.not_mem_nil) jump
  rwa [List.append_nil] at whole

/-- A line with an instruction adds it behind its label. -/
theorem Spells.add {lines : List (List Token)} {body : List Pending} {labels : Labels}
    {tokens : List Token} {p : Pending} (h : Spells lines body labels)
    (new : ∀ name, labelOf tokens = some name → labels.lookup name = none)
    (here : opcodeOf tokens = some p.opcode)
    (absent : p.opcode.takesArgument = false → p.operand = .absent)
    (jump : ∀ word name, statementOf tokens = [.word word, .label name] →
      p.operand = .label name) :
    Spells (lines ++ [tokens]) (body ++ [p]) (labels.after body.length tokens) := by
  obtain ⟨word, args, hst, hop⟩ := opcodeOf_eq_some here
  refine h.snoc new (by rw [here]; rfl) (fun q hq => ?_) (fun q hq => ?_)
    fun word' op name hst' hop' => ?_
  · rw [List.mem_singleton.mp hq]
    exact here
  · rw [List.mem_singleton.mp hq]
    exact absent
  · have label := jump word' name hst'
    rw [hst] at hst'
    cases hst'
    rw [hop] at hop'
    cases hop'
    exact ⟨p.line, by rw [← label]; rfl⟩

/-- A label stands before at most all instructions. -/
theorem Spells.within {lines : List (List Token)} {body : List Pending} {labels : Labels}
    (h : Spells lines body labels) (name : String) (target : Nat)
    (found : labels.lookup name = some target) : target ≤ body.length := by
  obtain ⟨before, line, after, split, hl⟩ := h.defined name target found
  have here := h.place before line after name split hl
  rw [found] at here
  cases here
  rw [h.size, split, instructionCount, instructionCount, List.countP_append]
  exact Nat.le_add_right _ _

open Layout in
/-- What lines spell is laid out with its labels resolved. -/
theorem Spells.code {lines : List (List Token)} {body : List Pending} {labels : Labels}
    {code : List Instruction} (h : Spells lines body labels) (hc : layout body labels = .ok code) :
    code = laidOut (items body labels) := by
  rw [layout_eq h.within (resolves_of_layout hc)] at hc
  exact (Except.ok.inj hc).symm

/-! ## Texts that are accepted -/

/-- A handler that lines of a text spell. -/
def Spelled (lines : List (List Token)) (handler : Handler) : Prop :=
  ∃ body labels, Spells lines body labels ∧ layout body labels = .ok handler.code.toList

namespace Assembly

/-- The handlers that have been read, in the order in which they are written. -/
def handlers (a : Assembly) : List Handler :=
  a.library.handlers ++
    match a.block with
    | .top => []
    | .script s | .handler s _ => s.script.handlers.toList

/-- What has been read is what the text spells. -/
structure Reads (a : Assembly) (bodies : Bodies) : Prop where
  ended : List.Forall₂ Spelled bodies.ended a.handlers
  current : match a.block with
    | .top | .script _ => bodies.current = none
    | .handler _ h => ∃ lines, bodies.current = some lines ∧ Spells lines h.body.toList h.labels

variable {a a₁ a' : Assembly} {line : Nat} {tokens : List Token} {bodies : Bodies}

/-- In a handler, a label is added to those of the handler. -/
theorem Labelled.inside {s : OpenScript} {h : OpenHandler} (hl : Labelled a (labelOf tokens) a₁)
    (block : a.block = .handler s h) :
    a₁.library = a.library ∧
      a₁.block = .handler s { h with labels := h.labels.after h.body.size tokens } ∧
      ∀ name, labelOf tokens = some name → h.labels.lookup name = none := by
  generalize hn : labelOf tokens = label at hl
  cases hl with
  | unlabelled =>
    refine ⟨rfl, ?_, fun name found => nomatch found⟩
    rw [block, Labels.after, hn, Option.map_none, Option.toList_none, List.append_nil]
  | label block' new =>
    rw [block] at block'
    cases block'
    refine ⟨rfl, ?_, fun name found => ?_⟩
    · rw [Labels.after, hn]
      rfl
    · cases found
      exact new

/-- Outside of handlers there are no labels. -/
theorem Labelled.outside {label : Option String} (hl : Labelled a label a₁)
    (block : ∀ s h, a.block ≠ .handler s h) : a₁ = a := by
  cases hl with
  | unlabelled => rfl
  | label block' => exact absurd block' (block _ _)

/-- Outside of handlers, no body is open. -/
theorem Reads.none_open (h : Reads a bodies) (block : ∀ s h, a.block ≠ .handler s h) :
    bodies.current = none := by
  have current := h.current
  cases hb : a.block with
  | handler s o => exact absurd hb (block s o)
  | _ => simpa only [hb] using current

/-- A line outside of handlers that opens none. -/
theorem Reads.passed (h : Reads a bodies) (block : ∀ s h, a.block ≠ .handler s h)
    (passes : hasDirective "handler" tokens = false) (block' : ∀ s h, a'.block ≠ .handler s h)
    (handlers : a'.handlers = a.handlers) : Reads a' (bodies.read tokens) := by
  have none := h.none_open block
  have read : bodies.read tokens = bodies := by
    rw [Bodies.read, none]
    exact if_neg (by rw [passes]; exact Bool.false_ne_true)
  rw [read]
  refine ⟨handlers ▸ h.ended, ?_⟩
  cases hb : a'.block with
  | handler s o => exact absurd hb (block' s o)
  | _ => exact none

/-- Lines outside of handlers. -/
theorem Reads.outside (h : Reads a bodies) (block : ∀ s h, a.block ≠ .handler s h)
    (hs : Stated line a (statementOf tokens) a') : Reads a' (bodies.read tokens) := by
  have other {directive word : String} {args : List Token} (apart : directive ≠ "handler")
      (hst : statementOf tokens = .word word :: args) (lower : Text.asciiLower word = directive) :
      hasDirective "handler" tokens = false :=
    (hasDirective_word hst _).trans (beq_false_of_ne (lower ▸ apart))
  generalize hst : statementOf tokens = st at hs
  cases hs with
  | nothing => exact h.passed block (hasDirective_nil hst _) block rfl
  | library directive top first hn settings =>
    refine h.passed block (other (by decide) hst directive) block ?_
    rw [handlers, handlers, Library.handlers, Library.handlers, (librarySettings_keep settings).2.2]
  | script directive top hn hk new named =>
    refine h.passed block (other (by decide) hst directive) nofun ?_
    rw [handlers, handlers, top]
  | property directive here hd =>
    refine h.passed block (directive.elim (other (by decide) hst) (other (by decide) hst)) nofun ?_
    rw [handlers, handlers, here]
    rfl
  | handler directive here hd =>
    have opens : hasDirective "handler" tokens = true :=
      (hasDirective_word hst _).trans (beq_iff_eq.mpr directive)
    have ended := h.ended
    rw [handlers, here] at ended
    rw [Bodies.read, h.none_open block]
    dsimp only
    rw [if_pos opens]
    exact ⟨ended, [], rfl, .nil⟩
  | endScript directive here =>
    refine h.passed block (other (by decide) hst directive) nofun ?_
    rw [handlers, handlers, here]
    simp [Library.handlers]
  | locals directive block' | endHandler directive block' | instruction block'
  | plain block' => exact absurd block' (block _ _)

/-- In a handler, its body is open. -/
theorem Reads.some_open {s : OpenScript} {o : OpenHandler} (h : Reads a bodies)
    (block : a.block = .handler s o) :
    ∃ lines, bodies.current = some lines ∧ Spells lines o.body.toList o.labels := by
  have current := h.current
  rwa [block] at current

/-- A line that leaves a handler open adds what it spells. -/
theorem Reads.continued {s s' : OpenScript} {o o' : OpenHandler}
    (h : Reads a bodies) (block : a.block = .handler s o)
    (open' : hasDirective "end" tokens = false) (block' : a'.block = .handler s' o')
    (scripts : a'.library.scripts = a.library.scripts)
    (handlers : s'.script.handlers = s.script.handlers)
    (spelled : ∀ lines, Spells lines o.body.toList o.labels →
      Spells (lines ++ [tokens]) o'.body.toList o'.labels) :
    Reads a' (bodies.read tokens) := by
  have ended := h.ended
  obtain ⟨lines, here, spells⟩ := h.some_open block
  have read : bodies.read tokens = { bodies with current := some (lines ++ [tokens]) } := by
    rw [Bodies.read, here]
    simp only [open', Bool.false_eq_true, if_false]
  rw [read]
  constructor
  · have same : a'.handlers = a.handlers := by
      simp only [Assembly.handlers, Library.handlers, scripts, block, block', handlers]
    rw [same]
    exact ended
  · simp only [block']
    exact ⟨_, rfl, spelled lines spells⟩

/-- The line that ends a handler closes its body. -/
theorem Reads.closed {s s' : OpenScript} {o : OpenHandler} {built : Handler}
    (h : Reads a bodies) (block : a.block = .handler s o)
    (ends : hasDirective "end" tokens = true) (block' : a'.block = .script s')
    (scripts : a'.library.scripts = a.library.scripts)
    (handlers : s'.script.handlers = s.script.handlers.push built)
    (spelled : ∀ lines, Spells lines o.body.toList o.labels → Spelled (lines ++ [tokens]) built) :
    Reads a' (bodies.read tokens) := by
  have ended := h.ended
  obtain ⟨lines, here, spells⟩ := h.some_open block
  have read : bodies.read tokens = ⟨bodies.ended ++ [lines ++ [tokens]], none⟩ := by
    rw [Bodies.read, here]
    exact if_pos ends
  have added : a'.handlers = a.handlers ++ [built] := by
    simp only [Assembly.handlers, Library.handlers, scripts, block, block', handlers,
      Array.toList_push, List.append_assoc]
  rw [read]
  constructor
  · rw [added]
    exact List.rel_append ended (.cons (spelled lines spells) .nil)
  · simp only [block']

/-- Lines in a handler. -/
theorem Reads.inside {s : OpenScript} {o : OpenHandler} (h : Reads a bodies)
    (block : a.block = .handler s o) (hl : Labelled a (labelOf tokens) a₁)
    (hs : Stated line a₁ (statementOf tokens) a') : Reads a' (bodies.read tokens) := by
  obtain ⟨library, here, new⟩ := hl.inside block
  have scripts : a₁.library.scripts = a.library.scripts := congrArg Library.scripts library
  have skip (none : opcodeOf tokens = none) (lines : List (List Token))
      (spells : Spells lines o.body.toList o.labels) :
      Spells (lines ++ [tokens]) o.body.toList (o.labels.after o.body.size tokens) :=
    spells.skip new none
  generalize hst : statementOf tokens = st at hs
  cases hs with
  | nothing =>
    exact h.continued block (hasDirective_nil hst _) here scripts rfl (skip (opcodeOf_nil hst))
  | library directive top | script directive top =>
    rw [here] at top
    cases top
  | property directive block' | handler directive block' | endScript directive block' =>
    rw [here] at block'
    cases block'
  | @locals word args s' h' declared directive block' hd =>
    rw [here] at block'
    cases block'
    have known : Text.asciiLower word ∈ directives ∧ Text.asciiLower word ≠ "end" := by
      rcases directive with directive | directive <;> rw [directive] <;> decide
    have none := (opcodeOf_word hst).trans (ofMnemonic?_directive known.1)
    have stays := (hasDirective_word hst "end").trans (beq_false_of_ne known.2)
    exact h.continued block stays rfl scripts rfl (skip none)
  | @endHandler word s' h' code directive block' hc =>
    rw [here] at block'
    cases block'
    have none := (opcodeOf_word hst).trans (ofMnemonic?_directive (by rw [directive]; decide))
    have ends := (hasDirective_word hst "end").trans (beq_iff_eq.mpr directive)
    exact h.closed block ends rfl scripts rfl fun lines spells =>
      ⟨_, _, skip none lines spells, hc⟩
  | @instruction word arg s₁ s' h' op operand lib block' hop takes ho =>
    rw [here] at block'
    cases block'
    obtain ⟨sameLib, sameScript, label⟩ := operand_keep ho
    have kept : lib.scripts = a.library.scripts := by rw [sameLib, library]
    refine h.continued block (hasDirective_mnemonic hst hop (by decide)) rfl kept
      (by rw [sameScript]) fun lines spells => ?_
    rw [Array.toList_push]
    refine spells.add new ((opcodeOf_word hst).trans hop) (fun no => ?_) fun word' name same => ?_
    · rw [takes] at no
      cases no
    · rw [hst] at same
      cases same
      exact (label name).mpr rfl
  | @plain word s' h' op block' hop takes =>
    rw [here] at block'
    cases block'
    refine h.continued block (hasDirective_mnemonic hst hop (by decide)) rfl scripts rfl
      fun lines spells => ?_
    rw [Array.toList_push]
    refine spells.add new ((opcodeOf_word hst).trans hop) (fun _ => rfl) fun word' name same => ?_
    rw [hst] at same
    cases same

theorem Reads.feed {text : List Char} (h : Reads a bodies) (hf : a.feed line text = .ok a') :
    Reads a' (bodies.read (lineTokens text)) := by
  obtain ⟨tokens, ht, a₁, hl, hs⟩ := feed_cases hf
  rw [lineTokens, ht]
  cases hb : a.block with
  | handler s o => exact h.inside hb hl hs
  | _ =>
    have outside : ∀ s o, a.block ≠ .handler s o := by
      intro s o same
      rw [hb] at same
      cases same
    rw [hl.outside outside] at hs
    exact h.outside outside hs

end Assembly

/-- The handlers of an assembled library are those that its text spells. -/
theorem assemble_spelled {text : String} {lib : Library} (h : assemble text = .ok lib) :
    List.Forall₂ Spelled (handlerBodies text) lib.handlers := by
  obtain ⟨a, ha, hf⟩ := bind_eq_ok.mp h
  have reads : a.Reads (((textLines text).map lineTokens).foldl Bodies.read {}) := by
    refine Assembly.feedAll_induction
      (P := fun texts a => a.Reads ((texts.map lineTokens).foldl Bodies.read {}))
      ha ⟨.nil, rfl⟩ fun before a text a' _ reads fed => ?_
    rw [List.map_append, List.foldl_append]
    exact reads.feed fed
  have ended := reads.ended
  unfold Assembly.finish at hf
  split at hf
  · rename_i top
    cases hf
    rw [Assembly.handlers, top, List.append_nil] at ended
    exact ended
  · cases hf
  · cases hf

theorem mem_of_forall₂ {α β : Type} {R : α → β → Prop} {xs : List α} {ys : List β}
    (h : List.Forall₂ R xs ys) {y : β} (hy : y ∈ ys) : ∃ x ∈ xs, R x y := by
  induction h with
  | nil => cases hy
  | cons here _ ih =>
    rcases List.mem_cons.mp hy with rfl | hy
    · exact ⟨_, List.mem_cons_self, here⟩
    · obtain ⟨x, hx, there⟩ := ih hy
      exact ⟨x, List.mem_cons_of_mem _ hx, there⟩

theorem mem_handlers {lib : Library} {s : Script} {h : Handler} (hs : s ∈ lib.scripts)
    (hh : h ∈ s.handlers) : h ∈ lib.handlers :=
  List.mem_flatMap.mpr ⟨s, Array.mem_toList_iff.mpr hs, Array.mem_toList_iff.mpr hh⟩

/-- Every handler of an assembled library is spelled somewhere. -/
theorem exists_spelled {text : String} {lib : Library} (accepted : assemble text = .ok lib)
    {h : Handler} (hh : h ∈ lib.handlers) : ∃ lines, Spelled lines h := by
  obtain ⟨lines, -, spelled⟩ := mem_of_forall₂ (assemble_spelled accepted) hh
  exact ⟨lines, spelled⟩

end Lingo
