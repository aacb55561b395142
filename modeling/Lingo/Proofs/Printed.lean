import Lingo.Proofs.Listable

/-!
# Tokens of the lines of a listing

Each kind of line that `listing` prints is one line, and consists of the tokens
that it is made of (`Token.Prints`); the comment behind an instruction adds none.
-/

namespace Lingo

open Number

namespace Token

/-- A text is one line with these tokens. -/
structure Prints (text : String) (tokens : List Token) : Prop where
  line : OneLine text.toList
  tokens : tokenize text.toList = .ok tokens

theorem Lexes.prints {text : String} {tokens : List Token} (h : Lexes text.toList tokens) :
    Prints text tokens :=
  ⟨h.line, tokenize_piece h⟩

/-- Two pieces with a space between them. -/
theorem Lexes.then {a b : String} {ts us : List Token} (h : Lexes a.toList ts)
    (h' : Lexes b.toList us) : Lexes (a ++ (" " ++ b)).toList (ts ++ us) := by
  rw [String.toList_append, String.toList_append]
  exact h.append h'.space (ends_space b.toList)

instance (w : List Char) : Decidable (Word w) :=
  decidable_of_iff
    (w ≠ [] ∧ w.all (fun c => endsWord c = false) ∧ w.head? ≠ some '"' ∧ '=' ∉ w ∧
      (w.head? ≠ some '#' ∧ w.head? ≠ some '@') ∧ startsNumber w = false)
    ⟨fun ⟨h₁, h₂, h₃, h₄, h₅, h₆⟩ => ⟨⟨h₁, List.all_iff_forall_prop.mp h₂, h₃⟩, h₄, h₅, h₆⟩,
      fun h => ⟨h.nonempty, List.all_iff_forall_prop.mpr h.whole, h.unquoted, h.noEq, h.noMark,
        h.noNumber⟩⟩

/-- Names with commas between them. -/
theorem lexes_names {names : List String} (words : ∀ name ∈ names, Word name.toList) :
    Lexes (", ".intercalate names).toList (names.map .word) := by
  rw [String.toList_intercalate]
  induction names with
  | nil => exact lexes_nil
  | cons name names ih =>
    have first := lexes_name (words name List.mem_cons_self)
    have rest := ih fun other h => words other (List.mem_cons_of_mem name h)
    cases names with
    | nil => simpa using first
    | cons next names =>
      rw [List.map_cons, List.map_cons, List.intercalate_cons_cons, List.append_assoc]
      exact first.append rest.space.comma (ends_cons (by decide) _)

/-- An indented directive. -/
theorem prints_directive (head directive : String) {rest : String} {tokens : List Token} (indent : Nat)
    (text : head.toList = List.replicate indent ' ' ++ (directive.toList ++ [' ']))
    (keyword : Word directive.toList) (h : Lexes rest.toList tokens) :
    Prints (head ++ rest) (.word directive :: tokens) := by
  refine Lexes.prints ?_
  have line := ((lexes_name keyword).then h).spaces indent
  rw [String.toList_append, String.toList_append] at line
  rw [String.toList_append, text, List.append_assoc, List.append_assoc]
  exact line

section

variable {lib : Library} {s : Script}

theorem prints_library (name : Quotable lib.name) :
    Prints (s!"library {lib.number.toInt} " ++ Text.quote lib.name ++ s!" version={lib.version}" ++
        (if lib.capitalX then " capitalx" else ""))
      (.word "library" :: .int lib.number.toInt :: .string lib.name ::
        .setting "version" (toString lib.version.toNat) ::
          if lib.capitalX then [.word "capitalx"] else []) := by
  have numeral : toString lib.version = toString lib.version.toNat := rfl
  have version : Lexes ("version=" ++ (toString lib.version ++
      (if lib.capitalX then " capitalx" else ""))).toList
        (.setting "version" (toString lib.version.toNat) ::
          if lib.capitalX then [.word "capitalx"] else []) := by
    have number := lexes_version lib.version.toNat
    rw [numeral]
    generalize toString lib.version.toNat = v at number ⊢
    cases lib.capitalX with
    | false =>
      rw [if_neg Bool.false_ne_true, if_neg Bool.false_ne_true, String.append_empty]
      exact number
    | true =>
      have flag : " capitalx" = " " ++ "capitalx" := by decide
      rw [if_pos rfl, if_pos rfl, flag, ← String.append_assoc]
      exact number.then (lexes_name (s := "capitalx") (by decide))
  have body := (lexes_int32 lib.number).then ((lexes_quote name).then version)
  have line := prints_directive "library " "library" 0 rfl (by decide) body
  have setting : toString " version=" = " " ++ "version=" := by decide
  rw [setting]
  simp only [← String.append_assoc] at line ⊢
  exact line

theorem kindName_word (kind : ScriptKind) : Word kind.name.toList := by
  cases kind <;> decide

theorem prints_script (name : Quotable s.name) :
    Prints (s!"script {s.member.toInt} {s.kind.name}" ++
        (if s.name.isEmpty then "" else " " ++ Text.quote s.name))
      (.word "script" :: .int s.member.toInt :: .word s.kind.name ::
        if s.name.isEmpty then [] else [.string s.name]) := by
  have kind : Lexes (s.kind.name ++ (if s.name.isEmpty then "" else " " ++ Text.quote s.name)).toList
      (.word s.kind.name :: if s.name.isEmpty then [] else [.string s.name]) := by
    have word := lexes_name (kindName_word s.kind)
    cases s.name.isEmpty with
    | true =>
      rw [if_pos rfl, if_pos rfl, String.append_empty]
      exact word
    | false =>
      rw [if_neg Bool.false_ne_true, if_neg Bool.false_ne_true]
      exact word.then (lexes_quote name)
  have body := (lexes_int32 s.member).then kind
  have line := prints_directive "script " "script" 0 rfl (by decide) body
  simp only [← String.append_assoc] at line ⊢
  exact line

theorem prints_property {names : List String} (words : ∀ name ∈ names, Word name.toList) :
    Prints ("  property " ++ ", ".intercalate names) (.word "property" :: names.map .word) :=
  prints_directive _ _ 2 rfl (by decide) (lexes_names words)

theorem prints_local {names : List String} (words : ∀ name ∈ names, Word name.toList) :
    Prints ("    local " ++ ", ".intercalate names) (.word "local" :: names.map .word) :=
  prints_directive _ _ 4 rfl (by decide) (lexes_names words)

theorem prints_handler {name : String} {params : List String} (word : Word name.toList)
    (words : ∀ name ∈ params, Word name.toList) :
    Prints ("  handler " ++ name ++ (if params.isEmpty then "" else " " ++ ", ".intercalate params))
      (.word "handler" :: .word name :: params.map .word) := by
  rw [String.append_assoc]
  refine prints_directive _ _ 2 rfl (by decide) ?_
  cases params with
  | nil => simpa using lexes_name word
  | cons first params => exact (lexes_name word).then (lexes_names words)

theorem prints_label (offset : Nat) :
    Prints s!"    @L{offset}:" [.labelDef (offsetLabel offset)] := by
  refine Lexes.prints ?_
  have line := (lexes_labelDef offset).spaces 4
  rw [offsetLabel, ← String.append_assoc] at line
  have text : s!"    @L{offset}:".toList = List.replicate 4 ' ' ++ ("@" ++ "L" ++ toString (offset : Int) ++ ":").toList := by
    simp only [String.toList_append]
    rfl
  rw [text]
  exact line

theorem prints_end (indent : Nat) (text : String)
    (h : text.toList = List.replicate indent ' ' ++ "end".toList) : Prints text [.word "end"] := by
  refine Lexes.prints ?_
  rw [h]
  exact (lexes_name (s := "end") (by decide)).spaces indent

end

/-! ## Instructions -/

theorem oneLine_intercalate {sep : List Char} {pieces : List (List Char)} (hs : OneLine sep)
    (h : ∀ piece ∈ pieces, OneLine piece) : OneLine (sep.intercalate pieces) := by
  induction pieces with
  | nil => exact fun _ hc => absurd hc List.not_mem_nil
  | cons piece pieces ih =>
    have first := h piece List.mem_cons_self
    have rest := ih fun p hp => h p (List.mem_cons_of_mem piece hp)
    cases pieces with
    | nil => simpa using first
    | cons next pieces =>
      rw [List.intercalate_cons_cons]
      exact (first.append hs).append rest

theorem oneLine_hexByte (b : UInt8) : OneLine (Text.hexByte b).toList := by
  have digit : ∀ d < 16, OneLine (Nat.toDigits 16 d) := by decide
  have bound := b.toNat_lt
  rw [Text.hexByte, String.toList_ofList]
  exact (digit _ (by omega)).append (digit _ (by omega))

theorem oneLine_toString (n : Nat) : OneLine (toString n).toList := by
  rw [show (toString n).toList = Nat.toDigits 10 n from Nat.toList_repr]
  exact ((toDigits_numeric n).unbroken false).line

theorem oneLine_replicate {c : Char} (hc : c ≠ '\n' ∧ c ≠ '\r') (n : Nat) :
    OneLine (List.replicate n c) := by
  intro d hd
  rw [List.eq_of_mem_replicate hd]
  exact hc

/-- The line of an instruction is its text, indented and with a comment behind it. -/
theorem instructionLine_eq (lib : Library) (s : Script) (i : Instruction) :
    ∃ n comment, OneLine comment ∧ (Listing.instructionLine lib s i).toList =
      List.replicate 4 ' ' ++ ((Listing.instructionText lib s i).toList ++
        (List.replicate n ' ' ++ ' ' :: ';' :: comment)) := by
  have space : OneLine [' '] := by decide
  have comment : OneLine (" ".toList ++ ((Text.padLeft 4 '0' (toString i.offset)).toList ++
      (" [".toList ++ ((" ".intercalate (i.bytes.map Text.hexByte)).toList ++ "]".toList)))) := by
    refine space.append (OneLine.append ?_ (OneLine.append ?_ (OneLine.append ?_ ?_)))
    · rw [Text.padLeft, String.toList_append, String.toList_ofList]
      exact (oneLine_replicate (by decide) _).append (oneLine_toString i.offset)
    · decide
    · rw [String.toList_intercalate]
      refine oneLine_intercalate space fun piece hp => ?_
      rw [List.map_map] at hp
      obtain ⟨b, -, rfl⟩ := List.mem_map.mp hp
      exact oneLine_hexByte b
    · decide
  refine ⟨28 - (Listing.instructionText lib s i).length, _, comment, ?_⟩
  rw [Listing.instructionLine, Text.padRight]
  simp only [String.toList_append, String.toList_ofList, List.append_assoc]
  rfl

theorem ends_blanks (n : Nat) (rest : List Char) : Ends (List.replicate n ' ' ++ ' ' :: rest) := by
  cases n with
  | zero => exact ends_space rest
  | succ n => exact ends_space _

/-- The line of an instruction has the tokens of its text. -/
theorem prints_instructionLine {lib : Library} {s : Script} {i : Instruction} {tokens : List Token}
    (h : Lexes (Listing.instructionText lib s i).toList tokens) :
    Prints (Listing.instructionLine lib s i) tokens := by
  obtain ⟨n, comment, oneLine, text⟩ := instructionLine_eq lib s i
  have columns := (h.append (lexes_nil.space.spaces n) (ends_blanks n [])).spaces 4
  have line : (Listing.instructionLine lib s i).toList =
      (List.replicate 4 ' ' ++ ((Listing.instructionText lib s i).toList ++
        (List.replicate n ' ' ++ [' ']))) ++ ';' :: comment := by
    rw [text]
    simp only [List.append_assoc, List.cons_append, List.nil_append]
  rw [List.append_nil] at columns
  constructor
  · rw [line]
    refine columns.line.append ?_
    intro c hc
    rcases List.mem_cons.mp hc with rfl | hc
    · decide
    · exact oneLine c hc
  · rw [line]
    exact tokenize_line columns comment

end Token

namespace Listing

open Token

/-- The token that an operand is printed as. -/
def operandToken (lib : Library) (s : Script) (i : Instruction) : Token :=
  match i.jumpTarget? with
  | some target => .label (offsetLabel target)
  | none =>
    if i.opcode.takesName then .symbol (lib.names.name i.argument)
    else if i.opcode.takesSlot then .int (i.argument / lib.slotScale).toInt
    else if i.opcode == .pushCons then
      match literalAt? s i.argument with
      | some (.text t) => .string t
      | some (.int n) => .int n.toInt
      | some (.float x) => .float x
      | none => .int i.argument.toInt
    else if i.opcode == .pushFloat32 then
      .float ((readDouble (Single.mk i.argument.toUInt32).text.toList).getD .zero)
    else .int i.argument.toInt

/-- What is mentioned by an instruction can be read back. -/
structure Legible (lib : Library) (s : Script) (i : Instruction) : Prop where
  name : i.opcode.takesName = true → ∀ c ∈ (lib.names.name i.argument).toList, endsWord c = false
  literal : ∀ x, literalAt? s i.argument = some x →
    x.Writable ∧ ∀ y, x = .float y → readDouble y.text.toList = some y
  single : i.opcode = .pushFloat32 →
    (Single.mk i.argument.toUInt32).magnitude < single.infinity ∧
      (readDouble (Single.mk i.argument.toUInt32).text.toList).map Single.ofDouble =
        some ⟨i.argument.toUInt32⟩

/-- The operand of a jump is the label of the offset that it leads to. -/
theorem lexes_jump {lib : Library} {s : Script} {i : Instruction} {target : Int}
    (jump : i.jumpTarget? = some target) :
    Lexes (operandText lib s i).toList [.label (offsetLabel target)] := by
  have label := lexes_label target
  have head : toString "@L" = "@" ++ "L" := by decide
  rw [offsetLabel, ← String.append_assoc, ← head] at label
  rw [operandText, jump]
  exact label

theorem lexes_operand {lib : Library} {s : Script} {i : Instruction} (h : Legible lib s i) :
    Lexes (operandText lib s i).toList [operandToken lib s i] := by
  cases jump : i.jumpTarget? with
  | some target =>
    rw [operandToken, jump]
    exact lexes_jump jump
  | none =>
    unfold operandText operandToken
    rw [jump]
    dsimp only
    by_cases takesName : i.opcode.takesName = true
    · rw [if_pos takesName, if_pos takesName]
      exact lexes_symbol (h.name takesName)
    rw [if_neg takesName, if_neg takesName]
    by_cases takesSlot : i.opcode.takesSlot = true
    · rw [if_pos takesSlot, if_pos takesSlot]
      exact lexes_int32 _
    rw [if_neg takesSlot, if_neg takesSlot]
    by_cases pushCons : (i.opcode == .pushCons) = true
    · rw [if_pos pushCons, if_pos pushCons]
      cases hl : literalAt? s i.argument with
      | none => exact lexes_int32 _
      | some x =>
        obtain ⟨writable, read⟩ := h.literal x hl
        cases x with
        | text t => exact lexes_quote writable
        | int n => exact lexes_int32 n
        | float x => exact lexes_double writable (read x rfl)
    rw [if_neg pushCons, if_neg pushCons]
    by_cases pushFloat : (i.opcode == .pushFloat32) = true
    · rw [if_pos pushFloat, if_pos pushFloat]
      obtain ⟨finite, read⟩ := h.single (beq_iff_eq.mp pushFloat)
      obtain ⟨y, hy, -⟩ := Option.map_eq_some_iff.mp read
      rw [hy, Option.getD_some]
      exact lexes_single finite hy
    rw [if_neg pushFloat, if_neg pushFloat]
    exact lexes_int32 _

theorem mnemonic_word {op : Opcode} (h : op ≠ .invalid) : Word op.mnemonic.toList := by
  have all : ∀ op ∈ Opcode.all, Word op.mnemonic.toList := by decide +kernel
  exact all op (Opcode.mem_all h)

/-- An instruction is printed as its mnemonic and, if it takes one, an operand of one token. -/
theorem prints_operation {lib : Library} {s : Script} {i : Instruction} {t : Token}
    (valid : i.opcode ≠ .invalid)
    (h : i.opcode.takesArgument = true → Lexes (operandText lib s i).toList [t]) :
    Prints (instructionLine lib s i)
      (.word i.opcode.mnemonic :: if i.opcode.takesArgument then [t] else []) := by
  refine prints_instructionLine ?_
  have word := lexes_name (mnemonic_word valid)
  unfold instructionText
  cases takes : i.opcode.takesArgument with
  | true =>
    rw [if_pos rfl, if_pos rfl, String.append_assoc]
    exact word.then (h takes)
  | false =>
    rw [if_neg Bool.false_ne_true, if_neg Bool.false_ne_true, if_neg (by simpa using valid)]
    exact word

theorem prints_instruction {lib : Library} {s : Script} {i : Instruction} (h : Legible lib s i)
    (valid : i.opcode ≠ .invalid) :
    Prints (instructionLine lib s i)
      (.word i.opcode.mnemonic ::
        if i.opcode.takesArgument then [operandToken lib s i] else []) :=
  prints_operation valid fun _ => lexes_operand h

end Listing

end Lingo
