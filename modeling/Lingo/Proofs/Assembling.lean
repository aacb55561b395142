import Mathlib.Data.List.Induction
import Lingo.Assembly.Assemble

/-!
# Steps of the assembler

What a line that is accepted does to what has been read before.

A line is a label, a statement, or both (`labelOf`, `statementOf`). `Labelled`
says what the label does and `Stated` what the statement does, with a case for
each directive and for the two kinds of instructions; `feed_cases` takes an
accepted line apart. `feedAll_induction` carries a property of what has been read
along the lines of a text.
-/

namespace Lingo

variable {α β ε : Type}

theorem bind_eq_ok {x : Except ε α} {f : α → Except ε β} {b : β} :
    (x >>= f) = .ok b ↔ ∃ a, x = .ok a ∧ f a = .ok b := by
  cases x with
  | error e =>
    constructor
    · intro h
      cases h
    · rintro ⟨a, h, -⟩
      cases h
  | ok a =>
    constructor
    · intro h
      exact ⟨a, rfl, h⟩
    · rintro ⟨a', h, hf⟩
      cases h
      exact hf

theorem ok_of_toOption {x : Except ε α} {a : α} (h : x.toOption = some a) : x = .ok a := by
  cases x with
  | error e => cases h
  | ok b =>
    cases h
    rfl

/-- The label that a line defines. -/
def labelOf : List Token → Option String
  | .labelDef label :: _ => some label
  | _ => none

/-- A line without its label. -/
def statementOf : List Token → List Token
  | .labelDef _ :: rest => rest
  | tokens => tokens

theorem statementOf_suffix (line : List Token) : statementOf line <:+ line := by
  unfold statementOf
  split
  · exact List.suffix_cons _ _
  · exact List.suffix_refl _

namespace Assembly

/-! ## Lines -/

/-- What the label of a line does. -/
inductive Labelled (a : Assembly) : Option String → Assembly → Prop
  | unlabelled : Labelled a none a
  | label {s : OpenScript} {h : OpenHandler} {name : String} (block : a.block = .handler s h)
    (new : h.labels.lookup name = none) :
    Labelled a (some name)
      { a with block := .handler s { h with labels := h.labels ++ [(name, h.body.size)] } }

/-- What the statement of a line does. -/
inductive Stated (line : Nat) (a : Assembly) : List Token → Assembly → Prop
  | nothing : Stated line a [] a
  | library {word : String} {number : Token} {settings : List Token} {n : Int32} {lib : Library}
    (directive : Text.asciiLower word = "library") (block : a.block = .top)
    (first : a.library.scripts = #[]) (hn : intOperand line number = .ok n)
    (hs : settings.foldlM (librarySetting line) { a.library with number := n } = .ok lib) :
    Stated line a (.word word :: number :: settings) { a with library := lib }
  | script {word kindWord : String} {member : Token} {rest : List Token} {n : Int32}
    {kind : ScriptKind} {name : String} (directive : Text.asciiLower word = "script")
    (block : a.block = .top) (hn : intOperand line member = .ok n)
    (hk : ScriptKind.ofName? kindWord = some kind) (new : a.library.scriptAt? n = none)
    (named : rest = [] ∧ name = "" ∨ rest = [.string name]) :
    Stated line a (.word word :: member :: .word kindWord :: rest)
      { a with block := .script ⟨line, { member := n, kind, name }⟩ }
  | property {word : String} {args : List Token} {s : OpenScript} {declared : List String}
    (directive : Text.asciiLower word = "property" ∨ Text.asciiLower word = "properties")
    (block : a.block = .script s) (hd : declaredNames line args = .ok declared) :
    Stated line a (.word word :: args)
      { library := { a.library with names := (a.library.names.internAll declared).2 }
        block := .script { s with script := { s.script with
          properties := s.script.properties ++ (a.library.names.internAll declared).1 } } }
  | handler {word : String} {args : List Token} {s : OpenScript} {name : String}
    {params : List String} (directive : Text.asciiLower word = "handler")
    (block : a.block = .script s) (hd : declaredNames line args = .ok (name :: params)) :
    Stated line a (.word word :: args)
      { library := { a.library with
          names := ((a.library.names.intern name).2.internAll params).2 }
        block := .handler s
          { line, name, nameId := (a.library.names.intern name).1, params } }
  | locals {word : String} {args : List Token} {s : OpenScript} {h : OpenHandler}
    {declared : List String}
    (directive : Text.asciiLower word = "local" ∨ Text.asciiLower word = "locals")
    (block : a.block = .handler s h) (hd : declaredNames line args = .ok declared) :
    Stated line a (.word word :: args)
      { library := { a.library with names := (a.library.names.internAll declared).2 }
        block := .handler s { h with locals := h.locals ++ declared } }
  | endHandler {word : String} {s : OpenScript} {h : OpenHandler} {code : List Instruction}
    (directive : Text.asciiLower word = "end") (block : a.block = .handler s h)
    (hc : layout h.body.toList h.labels = .ok code) :
    Stated line a [.word word]
      { a with block := .script { s with script := { s.script with
          handlers := s.script.handlers.push
            { nameId := h.nameId
              vectorPos := Int32.ofNat s.script.handlers.size
              params := h.params.filterMap a.library.names.find?
              locals := h.locals.filterMap a.library.names.find?
              code := code.toArray } } } }
  | endScript {word : String} {s : OpenScript} (directive : Text.asciiLower word = "end")
    (block : a.block = .script s) :
    Stated line a [.word word]
      { library := { a.library with scripts := a.library.scripts.push s.script }
        block := .top }
  | instruction {word : String} {arg : Token} {s s' : OpenScript} {h : OpenHandler} {op : Opcode}
    {operand : Operand} {library : Library} (block : a.block = .handler s h)
    (hop : Opcode.ofMnemonic? word = some op) (takes : op.takesArgument = true)
    (ho : Assembly.operand a.library s h line op arg = .ok (operand, library, s')) :
    Stated line a [.word word, arg]
      { library, block := .handler s' { h with body := h.body.push ⟨line, op, operand⟩ } }
  | plain {word : String} {s : OpenScript} {h : OpenHandler} {op : Opcode}
    (block : a.block = .handler s h) (hop : Opcode.ofMnemonic? word = some op)
    (takes : op.takesArgument = false) :
    Stated line a [.word word]
      { a with block := .handler s { h with body := h.body.push ⟨line, op, .absent⟩ } }

/-! ## Statements that are accepted -/

section

variable {line : Nat} {a a' : Assembly} {args : List Token} {word : String}

theorem libraryDirective_ok (directive : Text.asciiLower word = "library")
    (h : a.libraryDirective line args = .ok a') : Stated line a (.word word :: args) a' := by
  unfold libraryDirective at h
  split at h
  · cases h
  · rename_i placed
    simp only [Bool.or_eq_true, bne_iff_ne, Bool.not_eq_true', not_or, Decidable.not_not,
      Bool.not_eq_false, Array.isEmpty_iff] at placed
    split at h
    · cases h
    · obtain ⟨n, hn, h⟩ := bind_eq_ok.mp h
      obtain ⟨lib, hs, h⟩ := bind_eq_ok.mp h
      cases h
      exact .library directive placed.1 placed.2 hn hs

theorem scriptDirective_ok (directive : Text.asciiLower word = "script")
    (h : a.scriptDirective line args = .ok a') : Stated line a (.word word :: args) a' := by
  unfold scriptDirective at h
  split at h
  · cases h
  · rename_i placed
    simp only [bne_iff_ne, Decidable.not_not] at placed
    split at h
    · rename_i member kind rest
      obtain ⟨n, hn, h⟩ := bind_eq_ok.mp h
      cases kind with
      | word kindWord =>
        simp only at h
        split at h
        · rename_i kind hk
          obtain ⟨k, same, h⟩ := bind_eq_ok.mp h
          cases same
          split at h
          · cases h
          · rename_i new
            have new : a.library.scriptAt? n = none := Option.not_isSome_iff_eq_none.mp new
            split at h
            · cases h
              exact .script directive placed hn hk new (.inl ⟨rfl, rfl⟩)
            · cases h
              exact .script directive placed hn hk new (.inr rfl)
            · cases h
        · cases h
      | _ => cases h
    · cases h

theorem propertyDirective_ok
    (directive : Text.asciiLower word = "property" ∨ Text.asciiLower word = "properties")
    (h : a.propertyDirective line args = .ok a') : Stated line a (.word word :: args) a' := by
  unfold propertyDirective at h
  split at h
  · rename_i s block
    obtain ⟨declared, hd, h⟩ := bind_eq_ok.mp h
    cases h
    exact .property directive block hd
  · cases h

theorem handlerDirective_ok (directive : Text.asciiLower word = "handler")
    (h : a.handlerDirective line args = .ok a') : Stated line a (.word word :: args) a' := by
  unfold handlerDirective at h
  split at h
  · rename_i s block
    obtain ⟨declared, hd, h⟩ := bind_eq_ok.mp h
    cases declared with
    | nil => cases h
    | cons name params =>
      cases h
      exact .handler directive block hd
  · cases h

theorem localDirective_ok
    (directive : Text.asciiLower word = "local" ∨ Text.asciiLower word = "locals")
    (h : a.localDirective line args = .ok a') : Stated line a (.word word :: args) a' := by
  unfold localDirective at h
  split at h
  · rename_i s handler block
    obtain ⟨declared, hd, h⟩ := bind_eq_ok.mp h
    cases h
    exact .locals directive block hd
  · cases h

theorem endDirective_ok (directive : Text.asciiLower word = "end")
    (h : a.endDirective line args = .ok a') : Stated line a (.word word :: args) a' := by
  unfold endDirective at h
  split at h
  · cases h
  · split at h
    · rename_i s handler block
      obtain ⟨built, hb, h⟩ := bind_eq_ok.mp h
      obtain ⟨code, hc, hb⟩ := bind_eq_ok.mp hb
      cases hb
      cases h
      exact .endHandler directive block hc
    · rename_i s block
      cases h
      exact .endScript directive block
    · cases h

theorem instruction_ok (h : a.instruction line word args = .ok a') :
    Stated line a (.word word :: args) a' := by
  unfold instruction at h
  split at h
  · rename_i s handler block
    split at h
    · cases h
    · rename_i op hop
      split at h
      · rename_i takes
        split at h
        · cases h
        · obtain ⟨⟨operand, library, s'⟩, ho, h⟩ := bind_eq_ok.mp h
          cases h
          exact .instruction block hop takes ho
        · cases h
      · rename_i takes
        split at h
        · rename_i empty
          cases h
          rw [List.isEmpty_iff.mp empty]
          exact .plain block hop (by simpa using takes)
        · cases h
  · cases h

theorem statement_ok {first : Token} (h : a.statement line first args = .ok a') :
    Stated line a (first :: args) a' := by
  unfold statement at h
  split at h
  · split at h
    · exact libraryDirective_ok ‹_› h
    · exact scriptDirective_ok ‹_› h
    · exact propertyDirective_ok (.inl ‹_›) h
    · exact propertyDirective_ok (.inr ‹_›) h
    · exact handlerDirective_ok ‹_› h
    · exact localDirective_ok (.inl ‹_›) h
    · exact localDirective_ok (.inr ‹_›) h
    · exact endDirective_ok ‹_› h
    · exact instruction_ok h
  · cases h

theorem defineLabel_ok {label : String} (h : a.defineLabel line label = .ok a') :
    Labelled a (some label) a' := by
  unfold defineLabel at h
  split at h
  · rename_i s handler block
    split at h
    · cases h
    · rename_i new
      cases h
      exact .label block (Option.not_isSome_iff_eq_none.mp new)
  · cases h

end

/-- The settings of a `library` line concern no scripts and no names. -/
theorem librarySettings_keep {line : Nat} {settings : List Token} {lib lib' : Library}
    (h : settings.foldlM (librarySetting line) lib = .ok lib') :
    lib'.number = lib.number ∧ lib'.names = lib.names ∧ lib'.scripts = lib.scripts := by
  induction settings generalizing lib with
  | nil =>
    cases h
    exact ⟨rfl, rfl, rfl⟩
  | cons token settings ih =>
    rw [List.foldlM_cons] at h
    obtain ⟨lib₁, h₁, h⟩ := bind_eq_ok.mp h
    have kept : lib₁.number = lib.number ∧ lib₁.names = lib.names ∧
        lib₁.scripts = lib.scripts := by
      unfold librarySetting at h₁
      split at h₁
      · cases h₁
        exact ⟨rfl, rfl, rfl⟩
      · split at h₁
        · split at h₁ <;> cases h₁
          exact ⟨rfl, rfl, rfl⟩
        · cases h₁
      · split at h₁ <;> cases h₁
        exact ⟨rfl, rfl, rfl⟩
      · cases h₁
    obtain ⟨number, names, scripts⟩ := ih h
    exact ⟨number.trans kept.1, names.trans kept.2.1, scripts.trans kept.2.2⟩

/-- An operand adds to the names of the library and to the literals of the
script only, and is a label just where one is written. -/
theorem operand_keep {lib lib' : Library} {s s' : OpenScript} {h : OpenHandler} {line : Nat}
    {op : Opcode} {token : Token} {operand : Operand}
    (ho : Assembly.operand lib s h line op token = .ok (operand, lib', s')) :
    lib' = { lib with names := lib'.names } ∧
      s' = { s with script := { s.script with literals := s'.script.literals } } ∧
      ∀ name, operand = .label name ↔ token = .label name := by
  unfold Assembly.operand at ho
  split at ho
  · cases ho
    exact ⟨rfl, rfl, fun name => by simp⟩
  · cases ho
    exact ⟨rfl, rfl, fun name => by simp⟩
  · rename_i notLabel notSymbol
    have other {n : Int32} (name : String) : Operand.value n = .label name ↔ token = .label name :=
      ⟨nofun, fun same => absurd same (notLabel name)⟩
    split at ho
    · split at ho
      · obtain ⟨literal, hl, ho⟩ := bind_eq_ok.mp ho
        cases ho
        exact ⟨rfl, rfl, other⟩
      · cases ho
    · split at ho
      · cases ho
        exact ⟨rfl, rfl, other⟩
      · cases ho
    all_goals
      obtain ⟨n, hn, ho⟩ := bind_eq_ok.mp ho
      cases ho
      exact ⟨rfl, rfl, other⟩

/-! ## Lines that are accepted -/

/-- An accepted line consists of tokens, whose label is defined before its
statement is read. -/
theorem feed_cases {line : Nat} {a a' : Assembly} {text : List Char}
    (h : a.feed line text = .ok a') :
    ∃ tokens, Token.tokenize text = .ok tokens ∧
      ∃ a₁, Labelled a (labelOf tokens) a₁ ∧ Stated line a₁ (statementOf tokens) a' := by
  unfold feed at h
  split at h
  · cases h
  · rename_i ht
    cases h
    exact ⟨[], ht, a, .unlabelled, .nothing⟩
  · rename_i label rest ht
    obtain ⟨a₁, hl, h⟩ := bind_eq_ok.mp h
    refine ⟨_, ht, a₁, defineLabel_ok hl, ?_⟩
    cases rest with
    | nil =>
      cases h
      exact .nothing
    | cons first rest => exact statement_ok h
  · rename_i first rest notLabel ht
    refine ⟨_, ht, a, ?_⟩
    cases first with
    | labelDef label => exact absurd rfl (notLabel label)
    | _ => exact ⟨.unlabelled, statement_ok h⟩

theorem feedAll_append (line : Nat) (a : Assembly) (xs ys : List (List Char)) :
    feedAll line a (xs ++ ys) =
      feedAll line a xs >>= fun a => feedAll (line + xs.length) a ys := by
  induction xs generalizing line a with
  | nil => rfl
  | cons x xs ih =>
    rw [List.cons_append, feedAll, feedAll]
    cases a.feed line x with
    | error e => rfl
    | ok a' =>
      have step := ih (line + 1) a'
      rw [show line + 1 + xs.length = line + (x :: xs).length by simp; omega] at step
      exact step

/-- What holds at first, and is kept by every line that is accepted after those
before it, holds in the end. -/
theorem feedAll_induction {P : List (List Char) → Assembly → Prop} {texts : List (List Char)}
    {a : Assembly} (h : feedAll 1 {} texts = .ok a) (first : P [] {})
    (next : ∀ before a text a', feedAll 1 {} before = .ok a → P before a →
      a.feed (before.length + 1) text = .ok a' → P (before ++ [text]) a') : P texts a := by
  induction texts using List.reverseRecOn generalizing a with
  | nil =>
    cases h
    exact first
  | append_singleton before text ih =>
    rw [feedAll_append] at h
    obtain ⟨a₁, hb, h⟩ := bind_eq_ok.mp h
    obtain ⟨a₂, hf, h⟩ := bind_eq_ok.mp h
    cases h
    rw [Nat.add_comm] at hf
    exact next before a₁ text a hb (ih hb) hf

end Assembly

end Lingo
