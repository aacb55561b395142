import Lingo.Proofs.Authored
import Lingo.Proofs.Faults

/-!
# The lines of any listing

A listing need not be an assembly text: what has been printed may not be read back. Still, it
consists of one line for each that is printed, and each starts with the word that it is meant to
start with, if it can be split at all (`Token.Heads`).

* `names_whole`: the names of an assembled library break no word;
* `heads_library`, `heads_script`, `heads_property`, `heads_handler`, `heads_local`: directives;
* `prints_jump`: the line of a jump has one operand, the label of the offset it leads to;
* `heads_operation`: no other operand is a label.
-/

namespace Lingo

open Number

/-! ## Names -/

/-- No name is more than a word. -/
def Names.Whole (names : Names) : Prop :=
  ∀ name ∈ names.list, ∀ c ∈ name.toList, Token.endsWord c = false

namespace Names

variable {names names' : Names}

theorem Whole.interned (h : names.Whole) {added : List String} {ids : List Int32}
    (interned : names.Interned added ids names')
    (whole : ∀ name ∈ added, ∀ c ∈ name.toList, Token.endsWord c = false) : names'.Whole := by
  intro name hname
  rcases interned.mem name hname with old | new
  · exact h name old
  · exact whole name new

/-- Nor is a stand-in for a name. -/
theorem Whole.name (h : names.Whole) (id : Int32) :
    ∀ c ∈ (names.name id).toList, Token.endsWord c = false := by
  rw [Names.name]
  cases found : names.get? id with
  | some name =>
    rw [Names.get?] at found
    split at found
    · cases found
    · obtain ⟨hi, rfl⟩ := Array.getElem?_eq_some_iff.mp found
      exact h _ (Array.getElem_mem_toList hi)
  | none =>
    have before : ∀ c ∈ "<name:".toList, Token.endsWord c = false :=
      List.all_iff_forall_prop.mp (by decide)
    have behind : ∀ c ∈ ">".toList, Token.endsWord c = false :=
      List.all_iff_forall_prop.mp (by decide)
    intro c hc
    rw [Option.getD_none, String.toList_append, String.toList_append] at hc
    rcases List.mem_append.mp hc with hc | hc
    · rcases List.mem_append.mp hc with hc | hc
      · exact before c hc
      · exact (Token.unbroken_int id.toInt).whole c (Token.toList_toString id.toInt ▸ hc)
    · exact behind c hc

end Names

namespace Assembly

theorem whole_stated {line : Nat} {a a' : Assembly} {tokens : List Token}
    (h : a.library.names.Whole) (hs : Stated line a tokens a') (found : ∀ t ∈ tokens, t.Found) :
    a'.library.names.Whole := by
  have declared {args : List Token} {names : List String}
      (hd : declaredNames line args = .ok names) (found : ∀ t ∈ args, t.Found) :
      (a.library.names.internAll names).2.Whole :=
    h.interned (Names.interned_internAll _ _) (whole_of_words (words_of_declaredNames hd found))
  have behind {word : String} {args : List Token} (found : ∀ t ∈ .word word :: args, t.Found) :
      ∀ t ∈ args, t.Found := fun t ht => found t (List.mem_cons_of_mem _ ht)
  cases hs with
  | nothing => exact h
  | library _ _ _ _ settings =>
    rw [(librarySettings_keep settings).2.1]
    exact h
  | script => exact h
  | property _ _ hd => exact declared hd (behind found)
  | handler _ _ hd => exact declared hd (behind found)
  | locals _ _ hd => exact declared hd (behind found)
  | endHandler => exact h
  | endScript => exact h
  | instruction _ _ _ ho =>
    obtain ⟨added, ids, interned, symbols⟩ := operand_interned ho
    refine h.interned interned fun name hname => ?_
    exact found (.symbol name) (symbols name hname ▸ by simp)
  | plain => exact h

end Assembly

open Assembly in
/-- The names of an assembled library break no word. -/
theorem names_whole {text : String} {lib : Library} (accepted : assemble text = .ok lib) :
    lib.names.Whole := by
  obtain ⟨a, read, finished⟩ := bind_eq_ok.mp accepted
  have whole : a.library.names.Whole := by
    refine feedAll_induction (P := fun _ a => a.library.names.Whole) read (fun _ h => ?_) ?_
    · exact absurd h List.not_mem_nil
    · intro before a text a' _ h hf
      obtain ⟨tokens, ht, a₁, labelled, stated⟩ := feed_cases hf
      have same : a₁.library = a.library := by
        generalize labelOf tokens = label at labelled
        cases labelled <;> rfl
      have found := Token.found_of_tokenize ht
      refine whole_stated (same ▸ h) stated fun t ht => ?_
      exact found t ((statementOf_suffix tokens).subset ht)
  unfold finish at finished
  split at finished <;> cases finished
  exact whole

namespace Token

/-! ## Lines that start with a word -/

@[simp] theorem oneLine_append {cs ds : List Char} :
    OneLine (cs ++ ds) ↔ OneLine cs ∧ OneLine ds := by
  simp only [OneLine, List.forall_mem_append]

/-- A text is one line. If it can be split, it starts with a word, and what follows has `P`;
if it cannot, then not for a label. -/
structure Heads (text word : String) (P : List Token → Prop) : Prop where
  line : OneLine text.toList
  read : (∃ args, tokenize text.toList = .ok (.word word :: args) ∧ P args) ∨
    ∃ fault, tokenize text.toList = .error fault ∧ fault.label? = none

variable {text word : String} {P : List Token → Prop}

theorem Prints.heads {args : List Token} (h : Prints text (.word word :: args)) (hargs : P args) :
    Heads text word P :=
  ⟨h.line, .inl ⟨args, h.tokens, hargs⟩⟩

/-- An indented word with a space behind it. -/
theorem tokenizeFrom_indented (indent : Nat) {word : String} (h : Word word.toList)
    (rest : List Char) :
    tokenize (List.replicate indent ' ' ++ (word.toList ++ ' ' :: rest)) =
      tokenizeFrom [.word word] (' ' :: rest) := by
  have read := ((lexes_name h).spaces indent).read [] (' ' :: rest) (ends_space rest)
  rw [List.append_assoc] at read
  exact read

theorem tokenizeFrom_space (done : List Token) (rest : List Char) :
    tokenizeFrom done (' ' :: rest) = tokenizeFrom done rest := by
  rw [tokenizeFrom_cons, if_pos (by decide)]

/-- Only blanks and a comment are left of a line. -/
theorem tokenizeFrom_blanks (done : List Token) (n : Nat) (comment : List Char) :
    tokenizeFrom done (List.replicate n ' ' ++ ' ' :: ';' :: comment) = .ok done.reverse := by
  have blanks := (lexes_nil.space.spaces n).read done (';' :: comment) (ends_cons (by decide) _)
  rw [List.append_assoc] at blanks
  exact blanks.trans (tokenizeFrom_comment done comment)

/-- An indented directive, whatever stands behind it. -/
theorem heads_directive (head directive : String) {rest : String} (indent : Nat)
    (text : head.toList = List.replicate indent ' ' ++ (directive.toList ++ [' ']))
    (keyword : Word directive.toList) (line : OneLine rest.toList) :
    Heads (head ++ rest) directive fun _ => True := by
  have split : (head ++ rest).toList =
      List.replicate indent ' ' ++ (directive.toList ++ ' ' :: rest.toList) := by
    rw [String.toList_append, text]
    simp only [List.append_assoc, List.cons_append, List.nil_append]
  constructor
  · rw [split]
    have gap : OneLine (' ' :: rest.toList) :=
      oneLine_append.mpr ⟨(by decide : OneLine [' ']), line⟩
    have whole := ((lexes_name keyword).spaces indent).line.append gap
    simpa only [List.append_assoc] using whole
  · rw [split, tokenizeFrom_indented indent keyword]
    refine (tokenizeFrom_cases [.word directive] _).imp_left fun ⟨args, read⟩ => ?_
    exact ⟨args, read, trivial⟩

section

variable {lib : Library}

theorem oneLine_int (n : Int) : OneLine (toString n).toList := by
  rw [toList_toString]
  exact (unbroken_int n).line

theorem heads_library (lib : Library) :
    Heads (s!"library {lib.number.toInt} " ++ Text.quote lib.name ++ s!" version={lib.version}" ++
        (if lib.capitalX then " capitalx" else "")) "library" fun _ => True := by
  have line : OneLine (toString lib.number.toInt ++ (" " ++ (Text.quote lib.name ++
      (" version=" ++ (toString lib.version.toNat ++
        (if lib.capitalX then " capitalx" else "")))))).toList := by
    simp only [String.toList_append, oneLine_append]
    refine ⟨oneLine_int _, by decide, oneLine_quote _, by decide, oneLine_toString _, ?_⟩
    cases lib.capitalX <;> decide
  have heads := heads_directive "library " "library" 0 rfl (by decide) line
  simp only [← String.append_assoc] at heads ⊢
  exact heads

theorem heads_script (s : Script) :
    Heads (s!"script {s.member.toInt} {s.kind.name}" ++
        (if s.name.isEmpty then "" else " " ++ Text.quote s.name)) "script" fun _ => True := by
  have line : OneLine (toString s.member.toInt ++ (" " ++ (s.kind.name ++
      (if s.name.isEmpty then "" else " " ++ Text.quote s.name)))).toList := by
    simp only [String.toList_append, oneLine_append]
    refine ⟨oneLine_int _, by decide, (kindName_word s.kind).line, ?_⟩
    split
    · decide
    · rw [String.toList_append, oneLine_append]
      exact ⟨by decide, oneLine_quote _⟩
  have heads := heads_directive "script " "script" 0 rfl (by decide) line
  simp only [← String.append_assoc] at heads ⊢
  exact heads

variable (whole : lib.names.Whole)
include whole

theorem oneLine_names (ids : List Int32) :
    OneLine (", ".intercalate (lib.namesOf ids)).toList := by
  rw [String.toList_intercalate]
  refine oneLine_intercalate (by decide) fun piece hp => ?_
  obtain ⟨name, hname, rfl⟩ := List.mem_map.mp hp
  obtain ⟨id, -, rfl⟩ := List.mem_map.mp hname
  exact oneLine_of_whole (whole.name id)

theorem heads_property (s : Script) :
    Heads ("  property " ++ ", ".intercalate (lib.propertyNames s)) "property" fun _ => True :=
  heads_directive _ _ 2 rfl (by decide) (oneLine_names whole _)

theorem heads_local (ids : List Int32) :
    Heads ("    local " ++ ", ".intercalate (lib.namesOf ids)) "local" fun _ => True :=
  heads_directive _ _ 4 rfl (by decide) (oneLine_names whole _)

theorem heads_handler (h : Handler) :
    Heads ("  handler " ++ lib.names.name h.nameId ++
        (if (lib.namesOf h.params).isEmpty then ""
          else " " ++ ", ".intercalate (lib.namesOf h.params))) "handler" fun _ => True := by
  rw [String.append_assoc]
  refine heads_directive _ _ 2 rfl (by decide) ?_
  rw [String.toList_append, oneLine_append]
  refine ⟨oneLine_of_whole (whole.name _), ?_⟩
  split
  · decide
  · rw [String.toList_append, oneLine_append]
    exact ⟨by decide, oneLine_names whole _⟩

end

/-! ## Operands -/

/-- A piece of a line that yields one token, which is no label, or is refused, though not for a
label. -/
structure Bare (cs : List Char) : Prop where
  line : OneLine cs
  read : ∀ done rest, Ends rest →
    (∃ t, (∀ name, t ≠ .label name) ∧
        tokenizeFrom done (cs ++ rest) = tokenizeFrom (t :: done) rest) ∨
      ∃ fault, tokenizeFrom done (cs ++ rest) = .error fault ∧ fault.label? = none

theorem Lexes.bare {cs : List Char} {t : Token} (h : Lexes cs [t])
    (noLabel : ∀ name, t ≠ .label name) : Bare cs :=
  ⟨h.line, fun done rest hr => .inl ⟨t, noLabel, h.read done rest hr⟩⟩

/-- A label is a word with its mark. -/
theorem classify_label {w : List Char} {name : String} (h : classify w = .ok (.label name)) :
    w.head? = some '@' := by
  unfold classify at h
  split at h
  · cases h
  · rfl
  · split at h
    · cases h
    · split at h
      · rcases found_of_number h with ⟨x, same⟩ | ⟨n, same, -⟩ <;> cases same
      · cases h

theorem Unbroken.bare {w : List Char} (h : Unbroken w) (noMark : w.head? ≠ some '@') : Bare w := by
  refine ⟨h.line, fun done rest hr => ?_⟩
  rw [tokenizeFrom_word h done hr]
  cases word : classify w with
  | error fault => exact .inr ⟨fault, rfl, classify_error word⟩
  | ok t =>
    refine .inl ⟨t, fun name same => noMark (classify_label (same ▸ word)), rfl⟩

/-- The text of any number, be it infinite or none. -/
theorem bare_signedText (f : Format) (negative : Bool) (magnitude : Nat) :
    Bare (f.signed negative magnitude "0.0" Decimal.text).toList := by
  have special : ∀ w ∈ ["NaN".toList, "inf".toList, "-inf".toList],
      Word w ∧ w.head? ≠ some '@' := by decide
  have word {w : List Char} (h : w ∈ ["NaN".toList, "inf".toList, "-inf".toList]) : Bare w :=
    (special w h).1.toUnbroken.bare (special w h).2
  rcases Nat.lt_trichotomy magnitude f.infinity with finite | rfl | none
  · obtain ⟨cs, fraction, text⟩ := signedText_fraction f negative finite
    rw [text]
    refine (fraction.unbroken negative).bare fun mark => ?_
    obtain ⟨d, rest, rfl, digit⟩ := fraction.starts
    cases negative with
    | true => cases mark
    | false =>
      cases mark
      exact absurd digit (by decide)
  · rw [Format.signed, if_neg (Nat.lt_irrefl _), beq_self_eq_true, if_pos rfl]
    cases negative
    · exact word (by decide)
    · exact word (by decide)
  · rw [Format.signed, if_pos none]
    exact word (by decide)

end Token

namespace Listing

open Token

variable {lib : Library} {s : Script} {i : Instruction}

/-- The operand of an instruction that does not jump. -/
theorem bare_operand (whole : lib.names.Whole) (still : i.jumpTarget? = none) :
    Bare (operandText lib s i).toList := by
  have int (n : Int32) : Bare (toString n.toInt).toList := (lexes_int32 n).bare nofun
  unfold operandText
  rw [still]
  dsimp only
  split
  · exact (lexes_symbol (whole.name _)).bare nofun
  · split
    · exact int _
    · split
      · split
        · rename_i x _
          cases x with
          | text t => exact (lexes_reread t).bare nofun
          | int n => exact int n
          | float x => exact bare_signedText _ _ _
        · exact int _
      · split
        · exact bare_signedText _ _ _
        · exact int _

/-- The line of a jump. -/
theorem prints_jump {target : Int} (jump : i.jumpTarget? = some target) :
    Prints (instructionLine lib s i) [.word i.opcode.mnemonic, .label (offsetLabel target)] := by
  have jumps : i.opcode ≠ .invalid ∧ i.opcode.takesArgument = true := by
    unfold Instruction.jumpTarget? at jump
    split at jump
    · rename_i op
      rw [op]
      decide
    · rename_i op
      rw [op]
      decide
    · rename_i op
      rw [op]
      decide
    · cases jump
  have line : Prints (instructionLine lib s i) _ :=
    prints_operation jumps.1 fun _ => lexes_jump jump
  rwa [jumps.2, if_pos rfl] at line

/-- The line of any other instruction. -/
theorem heads_operation (whole : lib.names.Whole) (valid : i.opcode ≠ .invalid)
    (still : i.jumpTarget? = none) :
    Heads (instructionLine lib s i) i.opcode.mnemonic fun args => ∀ name, .label name ∉ args := by
  cases takes : i.opcode.takesArgument with
  | false =>
    -- There is no operand, so that any token will do for it.
    have line : Prints (instructionLine lib s i)
        (.word i.opcode.mnemonic :: if i.opcode.takesArgument then [.word ""] else []) := by
      refine prints_operation valid fun h => ?_
      rw [takes] at h
      cases h
    rw [takes, if_neg Bool.false_ne_true] at line
    exact line.heads nofun
  | true =>
    obtain ⟨n, comment, oneLine, text⟩ := instructionLine_eq lib s i
    have operand : Bare (operandText lib s i).toList := bare_operand whole still
    have word := mnemonic_word valid
    have split : (instructionLine lib s i).toList =
        List.replicate 4 ' ' ++ (i.opcode.mnemonic.toList ++ ' ' ::
          ((operandText lib s i).toList ++ (List.replicate n ' ' ++ ' ' :: ';' :: comment))) := by
      rw [text, instructionText, takes, if_pos rfl]
      simp only [String.toList_append, List.append_assoc]
      rfl
    have behind : OneLine (List.replicate n ' ' ++ ' ' :: ';' :: comment) := by
      have mark : OneLine [' ', ';'] := by decide
      exact (oneLine_replicate (by decide) n).append (mark.append oneLine)
    constructor
    · have gap : OneLine [' '] := by decide
      rw [split]
      exact (oneLine_replicate (by decide) 4).append
        (word.line.append (gap.append (operand.line.append behind)))
    · rw [split, tokenizeFrom_indented 4 word, tokenizeFrom_space]
      rcases operand.read [.word i.opcode.mnemonic] _ (ends_blanks n _) with
        ⟨t, noLabel, read⟩ | ⟨fault, refused, mild⟩
      · rw [read, tokenizeFrom_blanks]
        refine .inl ⟨[t], rfl, fun name here => ?_⟩
        exact noLabel name (List.mem_singleton.mp here).symm
      · exact .inr ⟨fault, refused, mild⟩

end Listing

end Lingo
