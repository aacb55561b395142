import Lingo.Proofs.Bodies
import Lingo.Proofs.Lexing

/-!
# Faults about labels

Of all that can be wrong with a line, two things are about a label: its definition, if the
handler has one by that name, and the end of a handler, if an operand names a label that it
does not define. Everything else is `Mild`.

* `Token.tokenizeFrom_cases`: a line that cannot be split is at fault for other reasons;
* `Assembly.statement_mild`: so is a statement that is refused, unless it ends a handler.
-/

namespace Lingo

/-- The label that a fault is about. -/
def AsmFault.label? : AsmFault → Option String
  | .duplicateLabel label | .undefinedLabel label => some label
  | _ => none

namespace Token

/-- A number that cannot be read is what is wrong with a word. -/
theorem number_error {w : List Char} {fault : AsmFault} (h : number w = .error fault) :
    fault.label? = none := by
  unfold number at h
  dsimp only at h
  split at h
  · split at h <;> cases h
    rfl
  · split at h
    · cases h
    · split at h <;> cases h
      rfl

theorem classify_error {w : List Char} {fault : AsmFault} (h : classify w = .error fault) :
    fault.label? = none := by
  unfold classify at h
  split at h
  · cases h
  · cases h
  · split at h
    · cases h
    · split at h
      · exact number_error h
      · cases h

/-- The tokens already found are the first ones of the line; and if it cannot be split, this is
not for a label. -/
theorem tokenizeFrom_cases (done : List Token) (cs : List Char) :
    (∃ tokens, tokenizeFrom done cs = .ok (done.reverse ++ tokens)) ∨
      ∃ fault, tokenizeFrom done cs = .error fault ∧ fault.label? = none := by
  induction n : cs.length using Nat.strongRecOn generalizing cs done with
  | ind n ih =>
    subst n
    -- One more token is found, and the rest of the line is shorter.
    have next (token : Token) (rest : List Char) (shorter : rest.length < cs.length) :
        (∃ tokens, tokenizeFrom (token :: done) rest = .ok (done.reverse ++ tokens)) ∨
          ∃ fault, tokenizeFrom (token :: done) rest = .error fault ∧ fault.label? = none := by
      refine (ih _ shorter (token :: done) rest rfl).imp_left fun ⟨tokens, found⟩ => ?_
      exact ⟨token :: tokens, by rw [found]; simp⟩
    cases cs with
    | nil => exact .inl ⟨[], by simp [tokenizeFrom_nil]⟩
    | cons c rest =>
      rw [tokenizeFrom_cons]
      split
      · exact ih _ (Nat.lt_succ_self _) done rest rfl
      · split
        · exact .inl ⟨[], by simp⟩
        · split
          · cases read : readString [] rest with
            | none => exact .inr ⟨_, rfl, rfl⟩
            | some found =>
              exact next _ _ (Nat.lt_succ_of_lt (length_readString read))
          · cases word : classify (c :: rest.takeWhile (!endsWord ·)) with
            | error fault => exact .inr ⟨fault, rfl, classify_error word⟩
            | ok token => exact next _ _ (Nat.lt_succ_of_le (length_dropWhile_le _ _))

end Token

namespace Assembly

/-- If there is an error, it is not about a label. -/
def Mild {α : Type} (result : AsmResult α) : Prop :=
  ∀ e, result = .error e → e.fault.label? = none

section

variable {α β : Type} {a : Assembly} {line : Nat} {args : List Token} {word : String}

theorem mild_ok (x : α) : Mild (.ok x : AsmResult α) :=
  nofun

theorem mild_fail (line : Nat) {fault : AsmFault} (h : fault.label? = none) :
    Mild (fail line fault : AsmResult α) := by
  rintro e ⟨⟩
  exact h

theorem Mild.bind {x : AsmResult α} {f : α → AsmResult β} (h : Mild x) (h' : ∀ y, Mild (f y)) :
    Mild (x >>= f) := by
  cases x with
  | error e =>
    rintro e' ⟨⟩
    exact h e rfl
  | ok y => exact h' y

theorem mild_mapM {γ : Type} {f : γ → AsmResult β} (h : ∀ x, Mild (f x)) (xs : List γ) :
    Mild (xs.mapM f) := by
  induction xs with
  | nil => exact mild_ok []
  | cons x xs ih =>
    rw [List.mapM_cons]
    exact (h x).bind fun y => ih.bind fun ys => mild_ok _

theorem mild_foldlM {γ : Type} {f : β → γ → AsmResult β} (h : ∀ x y, Mild (f x y)) (x : β)
    (ys : List γ) : Mild (ys.foldlM f x) := by
  induction ys generalizing x with
  | nil => exact mild_ok x
  | cons y ys ih =>
    rw [List.foldlM_cons]
    exact (h x y).bind ih

theorem intOperand_mild (line : Nat) (token : Token) : Mild (intOperand line token) := by
  unfold intOperand
  split
  · split
    · exact mild_ok _
    · exact mild_fail line rfl
  · exact mild_fail line rfl

theorem declaredNames_mild (line : Nat) (tokens : List Token) :
    Mild (declaredNames line tokens) := by
  refine mild_mapM (fun token => ?_) tokens
  split
  · exact mild_ok _
  · exact mild_fail line rfl

/-! ## Statements -/

theorem librarySetting_mild (line : Nat) (lib : Library) (token : Token) :
    Mild (librarySetting line lib token) := by
  unfold librarySetting
  split
  · exact mild_ok _
  · split
    · split
      · exact mild_ok _
      · exact mild_fail line rfl
    · exact mild_fail line rfl
  · split
    · exact mild_ok _
    · exact mild_fail line rfl
  · exact mild_fail line rfl

theorem libraryDirective_mild : Mild (a.libraryDirective line args) := by
  unfold libraryDirective
  split
  · exact mild_fail line rfl
  · split
    · exact mild_fail line rfl
    · refine (intOperand_mild line _).bind fun n => ?_
      exact (mild_foldlM (librarySetting_mild line) _ _).bind fun lib => mild_ok _

theorem scriptDirective_mild : Mild (a.scriptDirective line args) := by
  unfold scriptDirective
  split
  · exact mild_fail line rfl
  · split
    · refine (intOperand_mild line _).bind fun member => ?_
      extract_lets named
      have rest (kind : ScriptKind) : Mild (named kind) := by
        dsimp only [named]
        split
        · exact mild_fail line rfl
        · split
          · exact mild_ok _
          · exact mild_ok _
          · exact (mild_fail line rfl).bind fun name => mild_ok _
      split
      · split
        · exact rest _
        · exact (mild_fail line rfl).bind rest
      · exact (mild_fail line rfl).bind rest
    · exact mild_fail line rfl

theorem propertyDirective_mild : Mild (a.propertyDirective line args) := by
  unfold propertyDirective
  split
  · exact (declaredNames_mild line args).bind fun names => mild_ok _
  · exact mild_fail line rfl

theorem handlerDirective_mild : Mild (a.handlerDirective line args) := by
  unfold handlerDirective
  split
  · refine (declaredNames_mild line args).bind fun names => ?_
    split
    · exact mild_fail line rfl
    · exact mild_ok _
  · exact mild_fail line rfl

theorem localDirective_mild : Mild (a.localDirective line args) := by
  unfold localDirective
  split
  · exact (declaredNames_mild line args).bind fun names => mild_ok _
  · exact mild_fail line rfl

/-- Outside of handlers, nothing is laid out at an `end`. -/
theorem endDirective_mild (block : ∀ s h, a.block ≠ .handler s h) :
    Mild (a.endDirective line args) := by
  unfold endDirective
  split
  · exact mild_fail line rfl
  · split
    · exact absurd ‹_› (block _ _)
    · exact mild_ok _
    · exact mild_fail line rfl

theorem operand_mild (lib : Library) (s : OpenScript) (h : OpenHandler) (line : Nat) (op : Opcode)
    (token : Token) : Mild (Assembly.operand lib s h line op token) := by
  have literal : ∀ read, literalOperand? line token = some read → Mild read := by
    intro read same
    unfold literalOperand? at same
    split at same <;> cases same
    · exact mild_ok _
    · exact mild_ok _
    · intro e failed
      cases hn : intOperand line (.int ‹Int›) with
      | ok n => rw [hn] at failed; cases failed
      | error e' =>
        rw [hn] at failed
        cases failed
        exact intOperand_mild line _ e hn
  have slot (op : Opcode) : Mild (variableSlot line h op token) := by
    unfold variableSlot
    split
    · dsimp only
      split
      · exact mild_ok _
      · exact mild_fail line rfl
    · exact intOperand_mild line token
  unfold Assembly.operand
  split
  · exact mild_ok _
  · exact mild_ok _
  · split
    · split
      · exact (literal _ ‹_›).bind fun x => mild_ok _
      · exact mild_fail line rfl
    · split
      · exact mild_ok _
      · exact mild_fail line rfl
    · exact (slot _).bind fun n => mild_ok _
    · exact (slot _).bind fun n => mild_ok _
    · exact (slot _).bind fun n => mild_ok _
    · exact (slot _).bind fun n => mild_ok _
    · exact (intOperand_mild line token).bind fun n => mild_ok _

theorem instruction_mild : Mild (a.instruction line word args) := by
  unfold instruction
  split
  · split
    · exact mild_fail line rfl
    · split
      · split
        · exact mild_fail line rfl
        · exact (operand_mild _ _ _ _ _ _).bind fun read => mild_ok _
        · exact mild_fail line rfl
      · split
        · exact mild_ok _
        · exact mild_fail line rfl
  · exact mild_fail line rfl

/-- A statement is not refused for a label, unless it ends a handler. -/
theorem statement_mild {first : Token}
    (h : ∀ word, first = .word word → Text.asciiLower word = "end" →
      ∀ s o, a.block ≠ .handler s o) :
    Mild (a.statement line first args) := by
  unfold statement
  split
  · split
    · exact libraryDirective_mild
    · exact scriptDirective_mild
    · exact propertyDirective_mild
    · exact propertyDirective_mild
    · exact handlerDirective_mild
    · exact localDirective_mild
    · exact localDirective_mild
    · exact endDirective_mild (h _ rfl ‹_›)
    · exact instruction_mild
  · exact mild_fail line rfl

end

theorem finish_mild (a : Assembly) : Mild a.finish := by
  unfold finish
  split
  · exact mild_ok _
  · exact mild_fail _ rfl
  · exact mild_fail _ rfl

end Assembly

end Lingo
