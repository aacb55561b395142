import Mathlib.Data.Bool.AllAny
import Mathlib.Data.Char
import Mathlib.Data.List.TakeWhile
import Mathlib.Tactic.IntervalCases
import Lingo.Assembly.Token
import Lingo.Text.Ascii

/-!
# Texts that are read back

What is needed to read printed lines again. `Lexes cs tokens` says that a piece
of a line yields these tokens, wherever it stands before a blank, a comma, a
semicolon or the end of the line; pieces are put together with `Lexes.append`.

* `lexes_word`: words;
* `classify_int`: the decimal text of an integer is read as that integer;
* `tokenize_line`: the tokens of a line are those of its pieces, a comment at
  its end aside;
* `textLines_join`: the lines of lines that were joined.
-/

namespace Lingo

open Number

/-- Characters of one line. -/
def OneLine (cs : List Char) : Prop :=
  ∀ c ∈ cs, c ≠ '\n' ∧ c ≠ '\r'

theorem OneLine.append {cs ds : List Char} (h : OneLine cs) (h' : OneLine ds) :
    OneLine (cs ++ ds) := by
  intro c hc
  rcases List.mem_append.mp hc with hc | hc
  · exact h c hc
  · exact h' c hc

instance (cs : List Char) : Decidable (OneLine cs) :=
  decidable_of_iff _ List.all_iff_forall_prop

namespace Token

/-! ## Pieces of lines -/

/-- What can stand behind a word. -/
def Ends (rest : List Char) : Prop :=
  ∀ c ∈ rest.head?, endsWord c = true

/-- A piece of a line yields tokens. -/
structure Lexes (cs : List Char) (tokens : List Token) : Prop where
  line : OneLine cs
  read : ∀ done rest, Ends rest →
    tokenizeFrom done (cs ++ rest) = tokenizeFrom (tokens.reverse ++ done) rest

/-- Characters that make up one word. -/
structure Unbroken (w : List Char) : Prop where
  nonempty : w ≠ []
  whole : ∀ c ∈ w, endsWord c = false
  unquoted : w.head? ≠ some '"'

theorem ends_nil : Ends [] := nofun

theorem ends_cons {c : Char} (h : endsWord c = true) (rest : List Char) : Ends (c :: rest) := by
  intro d hd
  cases hd
  exact h

theorem ends_space (rest : List Char) : Ends (' ' :: rest) :=
  ends_cons (by decide) rest

theorem tokenizeFrom_nil (done : List Token) : tokenizeFrom done [] = .ok done.reverse := by
  rw [tokenizeFrom.eq_def]

theorem tokenizeFrom_cons (done : List Token) (c : Char) (rest : List Char) :
    tokenizeFrom done (c :: rest) =
      if Text.isBlank c || c == ',' then tokenizeFrom done rest
      else if c == ';' then .ok done.reverse
      else if c == '"' then
        match readString [] rest with
        | none => .error .unterminatedString
        | some (s, rest') => tokenizeFrom (.string (String.ofList s) :: done) rest'
      else
        match classify (c :: rest.takeWhile (!endsWord ·)) with
        | .error fault => .error fault
        | .ok token => tokenizeFrom (token :: done) (rest.dropWhile (!endsWord ·)) := by
  rw [tokenizeFrom.eq_def]
  dsimp only
  refine if_congr Iff.rfl rfl (if_congr Iff.rfl rfl (if_congr Iff.rfl ?_ rfl))
  split
  · rename_i none
    rw [none]
  · rename_i some
    rw [some]

theorem lexes_nil : Lexes [] [] where
  line := fun _ hc => absurd hc List.not_mem_nil
  read := fun _ _ _ => rfl

theorem Lexes.append {cs ds : List Char} {ts us : List Token} (h : Lexes cs ts) (h' : Lexes ds us)
    (ends : Ends ds) : Lexes (cs ++ ds) (ts ++ us) where
  line := h.line.append h'.line
  read := by
    intro done rest hr
    have behind : Ends (ds ++ rest) := by
      cases ds with
      | nil => exact hr
      | cons d ds => exact ends
    rw [List.append_assoc, h.read done _ behind, h'.read _ rest hr, List.reverse_append,
      List.append_assoc]

/-- A blank or a comma before a piece. -/
theorem Lexes.after {cs : List Char} {ts : List Token} (h : Lexes cs ts) {c : Char}
    (hc : c ∈ [' ', ',']) : Lexes (c :: cs) ts where
  line := by
    have breaks : ∀ c ∈ [' ', ','], c ≠ '\n' ∧ c ≠ '\r' := List.all_iff_forall_prop.mp (by decide)
    intro d hd
    rcases List.mem_cons.mp hd with rfl | hd
    · exact breaks d hc
    · exact h.line d hd
  read := by
    have skipped : ∀ c ∈ [' ', ','], (Text.isBlank c || c == ',') = true :=
      List.all_iff_forall_prop.mp (by decide)
    intro done rest hr
    rw [List.cons_append, tokenizeFrom_cons, if_pos (skipped c hc)]
    exact h.read done rest hr

theorem Lexes.space {cs : List Char} {ts : List Token} (h : Lexes cs ts) : Lexes (' ' :: cs) ts :=
  h.after (by decide)

theorem Lexes.comma {cs : List Char} {ts : List Token} (h : Lexes cs ts) : Lexes (',' :: cs) ts :=
  h.after (by decide)

theorem Lexes.spaces {cs : List Char} {ts : List Token} (h : Lexes cs ts) (n : Nat) :
    Lexes (List.replicate n ' ' ++ cs) ts := by
  induction n with
  | zero => exact h
  | succ n ih => exact ih.space

theorem takeWhile_ends {w rest : List Char} (whole : ∀ c ∈ w, endsWord c = false)
    (ends : Ends rest) : (w ++ rest).takeWhile (!endsWord ·) = w := by
  have all : ∀ c ∈ w, (!endsWord c) = true := fun c hc => by rw [whole c hc]; rfl
  rw [List.takeWhile_append_of_pos all]
  cases rest with
  | nil => rw [List.takeWhile_nil, List.append_nil]
  | cons c rest => rw [List.takeWhile_cons_of_neg (by rw [ends c rfl]; nofun), List.append_nil]

theorem dropWhile_ends {w rest : List Char} (whole : ∀ c ∈ w, endsWord c = false)
    (ends : Ends rest) : (w ++ rest).dropWhile (!endsWord ·) = rest := by
  have all : ∀ c ∈ w, (!endsWord c) = true := fun c hc => by rw [whole c hc]; rfl
  rw [List.dropWhile_append_of_pos all]
  cases rest with
  | nil => rfl
  | cons c rest => rw [List.dropWhile_cons_of_neg (by rw [ends c rfl]; nofun)]

/-- Characters that end no word break no line. -/
theorem oneLine_of_whole {cs : List Char} (whole : ∀ c ∈ cs, endsWord c = false) : OneLine cs := by
  have ended : endsWord '\n' = true ∧ endsWord '\r' = true := by decide
  intro c hc
  constructor
  · rintro rfl
    exact absurd ((whole _ hc).symm.trans ended.1) Bool.false_ne_true
  · rintro rfl
    exact absurd ((whole _ hc).symm.trans ended.2) Bool.false_ne_true

theorem Unbroken.line {w : List Char} (h : Unbroken w) : OneLine w :=
  oneLine_of_whole h.whole

theorem tokenizeFrom_word {w : List Char} (h : Unbroken w) (done : List Token) {rest : List Char}
    (ends : Ends rest) :
    tokenizeFrom done (w ++ rest) =
      match classify w with
      | .error fault => .error fault
      | .ok token => tokenizeFrom (token :: done) rest := by
  obtain ⟨c, w, rfl⟩ := List.exists_cons_of_ne_nil h.nonempty
  have first := h.whole c List.mem_cons_self
  have others : ∀ d ∈ w, endsWord d = false := fun d hd => h.whole d (List.mem_cons_of_mem c hd)
  have noQuote : (c == '"') = false := beq_false_of_ne fun same => h.unquoted (by rw [same]; rfl)
  have noBlank : (Text.isBlank c || c == ',') = false ∧ (c == ';') = false := by
    rw [endsWord, Bool.or_eq_false_iff] at first
    exact first
  rw [List.cons_append, tokenizeFrom_cons]
  simp only [noBlank.1, noBlank.2, noQuote, Bool.false_eq_true, if_false,
    takeWhile_ends others ends, dropWhile_ends others ends]

theorem lexes_word {w : List Char} {t : Token} (h : Unbroken w) (ht : classify w = .ok t) :
    Lexes w [t] := by
  refine ⟨h.line, fun done rest hr => ?_⟩
  rw [tokenizeFrom_word h done hr, ht]
  rfl

/-! ## Lines -/

theorem tokenize_piece {cs : List Char} {ts : List Token} (h : Lexes cs ts) :
    tokenize cs = .ok ts := by
  have line := h.read [] [] ends_nil
  rw [List.append_nil, List.append_nil] at line
  rw [tokenize, line, tokenizeFrom_nil, List.reverse_reverse]

theorem tokenizeFrom_comment (done : List Token) (comment : List Char) :
    tokenizeFrom done (';' :: comment) = .ok done.reverse := by
  rw [tokenizeFrom_cons, if_neg (by decide), if_pos (by decide)]

/-- A comment is no part of a line. -/
theorem tokenize_line {cs : List Char} {ts : List Token} (h : Lexes cs ts) (comment : List Char) :
    tokenize (cs ++ ';' :: comment) = .ok ts := by
  have line := h.read [] (';' :: comment) (ends_cons (by decide) _)
  rw [List.append_nil] at line
  rw [tokenize, line, tokenizeFrom_comment, List.reverse_reverse]

end Token

theorem linesFrom_append {line cs : List Char} (h : OneLine cs) (rest : List Char) :
    linesFrom line (cs ++ rest) = linesFrom (cs.reverse ++ line) rest := by
  induction cs generalizing line with
  | nil => rfl
  | cons c cs ih =>
    have hc : (c == '\n') = false := beq_false_of_ne (h c List.mem_cons_self).1
    rw [List.cons_append, linesFrom.eq_def]
    simp only [hc, Bool.false_eq_true, if_false]
    rw [ih (fun d hd => h d (List.mem_cons_of_mem c hd)), List.reverse_cons, List.append_assoc]
    rfl

theorem linesFrom_newline {cs : List Char} (h : OneLine cs) (rest : List Char) :
    linesFrom [] (cs ++ '\n' :: rest) = cs :: linesFrom [] rest := by
  rw [linesFrom_append h, List.append_nil, linesFrom.eq_def]
  simp only [beq_self_eq_true, if_true]
  congr 1
  split
  · rename_i line same
    have mem : '\r' ∈ cs := List.mem_reverse.mp (by rw [same]; exact List.mem_cons_self)
    exact absurd rfl (h '\r' mem).2
  · rw [List.reverse_reverse]

/-- Lines that are joined, each with its line feed, are split again. -/
theorem textLines_join {lines : List String} (h : ∀ l ∈ lines, OneLine l.toList) :
    textLines (String.join (lines.map (· ++ "\n"))) = lines.map String.toList := by
  rw [textLines, String.toList_join]
  induction lines with
  | nil => rfl
  | cons l lines ih =>
    have head := linesFrom_newline (h l List.mem_cons_self)
      ((lines.map (· ++ "\n")).flatMap String.toList)
    rw [ih fun l' hl => h l' (List.mem_cons_of_mem l hl)] at head
    rw [List.map_cons, List.map_cons, List.flatMap_cons, String.toList_append, List.append_assoc]
    exact head

namespace Token

/-! ## Decimal numbers -/

theorem digitValue?_digitChar {d : Nat} (h : d < 10) : digitValue? 10 d.digitChar = some d := by
  have all : ∀ d < 10, digitValue? 10 d.digitChar = some d := by decide
  exact all d h

theorem digitValues?_toDigits (n : Nat) :
    ∃ ds, (Nat.toDigits 10 n).mapM (digitValue? 10) = some ds ∧ horner 10 ds.reverse = n := by
  induction n using Nat.strongRecOn with
  | ind n ih =>
    rw [Nat.toDigits_eq_if (by decide)]
    split
    · rename_i small
      exact ⟨[n], by simp [digitValue?_digitChar small], by simp [horner]⟩
    · obtain ⟨ds, read, value⟩ := ih (n / 10) (by omega)
      have last := digitValue?_digitChar (Nat.mod_lt n (by decide : 10 > 0))
      refine ⟨ds ++ [n % 10], ?_, ?_⟩
      · rw [List.mapM_append, read]
        simp [last]
      · rw [List.reverse_append, List.reverse_singleton, List.singleton_append, horner, value]
        omega

theorem readDigits_toDigits (n : Nat) : readDigits 10 (Nat.toDigits 10 n) = some n := by
  obtain ⟨ds, read, value⟩ := digitValues?_toDigits n
  have nonempty : (Nat.toDigits 10 n).isEmpty = false := by simp
  rw [readDigits, digitValues?, nonempty, if_neg Bool.false_ne_true, read, Option.map_some,
    ofDigits_eq_horner, value]

/-- A text with a minus sign before it or without. -/
def signed (negative : Bool) (cs : List Char) : List Char :=
  if negative then '-' :: cs else cs

/-- What stands behind the sign of a decimal number. -/
structure Numeric (cs : List Char) : Prop where
  starts : ∃ d rest, cs = d :: rest ∧ d.isDigit = true
  plain : ∀ c ∈ cs, c.isDigit = true ∨ c ∈ ['.', 'e', '-']

theorem mem_digits {c : Char} (h : c.isDigit = true) : c ∈ "0123456789".toList := by
  have range : 48 ≤ c.toNat ∧ c.toNat ≤ 57 := by
    unfold Char.isDigit at h
    simp only [Bool.and_eq_true, decide_eq_true_eq, ge_iff_le, UInt32.le_iff_toNat_le] at h
    exact h
  have named : Char.ofNat c.toNat = c := Char.ofNat_toNat c
  obtain ⟨low, high⟩ := range
  generalize c.toNat = n at named low high
  subst named
  interval_cases n <;> decide

/-- What no character of a decimal number is. -/
theorem Numeric.char {cs : List Char} (h : Numeric cs) {c : Char} (hc : c ∈ cs) :
    endsWord c = false ∧ c ≠ '"' ∧ c ≠ '=' ∧ c ≠ 'x' ∧ c ≠ 'X' := by
  have all : ∀ c ∈ "0123456789".toList ++ ['.', 'e', '-'],
      endsWord c = false ∧ c ≠ '"' ∧ c ≠ '=' ∧ c ≠ 'x' ∧ c ≠ 'X' :=
    List.all_iff_forall_prop.mp (by decide)
  refine all c (List.mem_append.mpr ?_)
  rcases h.plain c hc with digit | sign
  · exact .inl (mem_digits digit)
  · exact .inr sign

theorem Numeric.signed_char {cs : List Char} (h : Numeric cs) {negative : Bool} {c : Char}
    (hc : c ∈ signed negative cs) : endsWord c = false ∧ c ≠ '"' ∧ c ≠ '=' := by
  cases negative with
  | false => exact ⟨(h.char hc).1, (h.char hc).2.1, (h.char hc).2.2.1⟩
  | true =>
    rcases List.mem_cons.mp hc with rfl | hc
    · decide
    · exact ⟨(h.char hc).1, (h.char hc).2.1, (h.char hc).2.2.1⟩

theorem Numeric.unbroken {cs : List Char} (h : Numeric cs) (negative : Bool) :
    Unbroken (signed negative cs) where
  nonempty := by
    obtain ⟨d, rest, rfl, -⟩ := h.starts
    cases negative <;> exact List.cons_ne_nil _ _
  whole := fun c hc => (h.signed_char hc).1
  unquoted := fun head => (h.signed_char (List.mem_of_mem_head? head)).2.1 rfl

theorem Numeric.classify {cs : List Char} (h : Numeric cs) (negative : Bool) :
    classify (signed negative cs) = number (signed negative cs) := by
  have noEq : (signed negative cs).contains '=' = false := by
    rw [List.contains_eq_mem, decide_eq_false_iff_not]
    exact fun hc => (h.signed_char hc).2.2 rfl
  obtain ⟨d, rest, rfl, digit⟩ := h.starts
  have first : ∀ c ∈ "0123456789".toList, c ≠ '#' ∧ c ≠ '@' ∧ c ≠ '-' :=
    List.all_iff_forall_prop.mp (by decide)
  obtain ⟨noHash, noAt, noMinus⟩ := first d (mem_digits digit)
  cases negative with
  | true =>
    have starts : startsNumber ('-' :: d :: rest) = true := digit
    rw [Token.classify]
    · simp only [signed, if_true] at noEq ⊢
      rw [noEq, if_neg Bool.false_ne_true, starts, if_pos rfl]
    · exact fun name same => by cases same
    · exact fun name same => by cases same
  | false =>
    have starts : startsNumber (d :: rest) = true := by
      rw [startsNumber.eq_def]
      split
      · rename_i same
        cases same
        exact absurd rfl noMinus
      · rename_i same
        cases same
        exact digit
      · rename_i same
        cases same
    rw [Token.classify]
    · simp only [signed, Bool.false_eq_true, if_false] at noEq ⊢
      rw [noEq, if_neg Bool.false_ne_true, starts, if_pos rfl]
    · exact fun name same => by cases same; exact noHash rfl
    · exact fun name same => by cases same; exact noAt rfl

/-- A numeral without the mark of hexadecimal numbers. -/
theorem number_unmarked (negative : Bool) {d : Char} {rest : List Char} (noMinus : d ≠ '-')
    (unmarked : ∀ x tail, d :: rest = '0' :: x :: tail → x ≠ 'x' ∧ x ≠ 'X') :
    number (signed negative (d :: rest)) =
      match readInt64 10 (signed negative (d :: rest)) with
      | some n => .ok (.int n)
      | none =>
        match readDouble (signed negative (d :: rest)) with
        | some x => .ok (.float x)
        | none => .error (.invalidNumber (String.ofList (signed negative (d :: rest)))) := by
  have second : ∀ x tail, d :: rest = '0' :: x :: tail → (x == 'x' || x == 'X') = false := by
    intro x tail same
    obtain ⟨small, large⟩ := unmarked x tail same
    simp [small, large]
  have noSign : ∀ w, d :: rest ≠ '-' :: w := fun w same => noMinus (List.cons.inj same).1
  unfold Token.number
  cases negative <;> simp only [signed, Bool.false_eq_true, if_false, if_true]
  all_goals
    split
    · rename_i hex
      split at hex
      · rename_i same
        rw [second _ _ same] at hex
        cases hex
      · cases hex
    · rfl

theorem Numeric.number {cs : List Char} (h : Numeric cs) (negative : Bool) :
    number (signed negative cs) =
      match readInt64 10 (signed negative cs) with
      | some n => .ok (.int n)
      | none =>
        match readDouble (signed negative cs) with
        | some x => .ok (.float x)
        | none => .error (.invalidNumber (String.ofList (signed negative cs))) := by
  obtain ⟨d, rest, rfl, digit⟩ := h.starts
  have first : ∀ c ∈ "0123456789".toList, c ≠ '-' := List.all_iff_forall_prop.mp (by decide)
  refine number_unmarked negative (first d (mem_digits digit)) fun x tail same => ?_
  obtain ⟨-, -, -, small, large⟩ := h.char (c := x) (by rw [same]; simp)
  exact ⟨small, large⟩

theorem toDigits_numeric (n : Nat) : Numeric (Nat.toDigits 10 n) where
  starts := by
    obtain ⟨d, rest, same⟩ := List.exists_cons_of_ne_nil (Nat.toDigits_ne_nil (n := n) (b := 10))
    refine ⟨d, rest, same, ?_⟩
    exact Nat.isDigit_of_mem_toDigits (by decide) (by decide) (same ▸ List.mem_cons_self)
  plain := fun c hc => .inl (Nat.isDigit_of_mem_toDigits (by decide) (by decide) hc)

/-! ## Integers -/

/-- The characters of an integer's text. -/
def intChars (n : Int) : List Char :=
  signed (n < 0) (Nat.toDigits 10 n.natAbs)

theorem toList_toString (n : Int) : (toString n).toList = intChars n := by
  rw [Int.toString_eq_repr, Int.repr_eq_if, intChars]
  by_cases nonneg : 0 ≤ n
  · have same : n.toNat = n.natAbs := by omega
    have sign : decide (n < 0) = false := decide_eq_false (by omega)
    rw [if_pos nonneg, sign, Nat.toList_repr, same]
    rfl
  · have same : (-n).toNat = n.natAbs := by omega
    have sign : decide (n < 0) = true := decide_eq_true (by omega)
    rw [if_neg nonneg, sign, String.toList_append, Nat.toList_repr, same]
    rfl

theorem readInteger_intChars (n : Int) : readInteger 10 (intChars n) = some n := by
  have read := readDigits_toDigits n.natAbs
  obtain ⟨d, rest, same, digit⟩ := (toDigits_numeric n.natAbs).starts
  rw [same] at read
  by_cases negative : n < 0
  · rw [intChars, decide_eq_true negative, signed, if_pos rfl, same, readInteger, read]
    exact congrArg some (show -(n.natAbs : Int) = n by omega)
  · have first : ∀ c ∈ "0123456789".toList, c ≠ '-' ∧ c ≠ '+' :=
      List.all_iff_forall_prop.mp (by decide)
    obtain ⟨noMinus, noPlus⟩ := first d (mem_digits digit)
    rw [intChars, decide_eq_false negative, signed, if_neg Bool.false_ne_true, same,
      readInteger.eq_def]
    split
    · rename_i same
      cases same
      exact absurd rfl noMinus
    · rename_i same
      cases same
      exact absurd rfl noPlus
    · rw [read]
      exact congrArg some (show (n.natAbs : Int) = n by omega)

/-- The text of an integer is read as that integer. -/
theorem classify_int {n : Int} (low : Int64.minValue.toInt ≤ n) (high : n ≤ Int64.maxValue.toInt) :
    classify (intChars n) = .ok (.int n) := by
  have numeric := toDigits_numeric n.natAbs
  have read : readInt64 10 (intChars n) = some n := by
    rw [readInt64, readInteger_intChars, Option.filter_some, decide_eq_true low,
      decide_eq_true high]
    rfl
  have steps := (numeric.classify (n < 0)).trans (numeric.number (n < 0))
  rw [intChars] at read ⊢
  rw [steps, read]

theorem unbroken_int (n : Int) : Unbroken (intChars n) :=
  (toDigits_numeric n.natAbs).unbroken _

theorem lexes_int {n : Int} (low : Int64.minValue.toInt ≤ n) (high : n ≤ Int64.maxValue.toInt) :
    Lexes (toString n).toList [.int n] := by
  rw [toList_toString]
  exact lexes_word (unbroken_int n) (classify_int low high)

theorem lexes_int32 (n : Int32) : Lexes (toString n.toInt).toList [.int n.toInt] := by
  have low := n.le_toInt
  have high := n.toInt_lt
  have bounds : Int64.minValue.toInt = -9223372036854775808 ∧
      Int64.maxValue.toInt = 9223372036854775807 := by decide
  exact lexes_int (by omega) (by omega)

/-! ## Floats -/

/-- A numeral with a point or an exponent is no integer. -/
theorem readInt64_fraction {cs : List Char} (h : Numeric cs) (negative : Bool) {c : Char}
    (hc : c ∈ cs) (noDigit : digitValue? 10 c = none) :
    readInt64 10 (signed negative cs) = none := by
  have values : cs.mapM (digitValue? 10) = none := by
    obtain ⟨before, after, rfl⟩ := List.append_of_mem hc
    rw [List.mapM_append, List.mapM_cons, noDigit]
    cases before.mapM (digitValue? 10) <;> rfl
  have digits : readDigits 10 cs = none := by
    rw [readDigits, digitValues?, values, ite_self]
    rfl
  have integer : readInteger 10 (signed negative cs) = none := by
    cases negative with
    | true =>
      rw [signed, if_pos rfl, readInteger, digits]
      rfl
    | false =>
      obtain ⟨d, rest, rfl, digit⟩ := h.starts
      have first : ∀ c ∈ "0123456789".toList, c ≠ '-' ∧ c ≠ '+' :=
        List.all_iff_forall_prop.mp (by decide)
      obtain ⟨noMinus, noPlus⟩ := first d (mem_digits digit)
      rw [signed, if_neg Bool.false_ne_true, readInteger.eq_def]
      split
      · rename_i same
        cases same
        exact absurd rfl noMinus
      · rename_i same
        cases same
        exact absurd rfl noPlus
      · rw [digits]
        rfl
  rw [readInt64, integer]
  rfl

/-- A numeral with a point or an exponent. -/
structure Fraction (cs : List Char) : Prop extends Numeric cs where
  marked : '.' ∈ cs ∨ 'e' ∈ cs

theorem classify_float {cs : List Char} (h : Fraction cs) (negative : Bool) {x : Double}
    (read : readDouble (signed negative cs) = some x) :
    classify (signed negative cs) = .ok (.float x) := by
  have noInt : readInt64 10 (signed negative cs) = none := by
    rcases h.marked with point | exponent
    · exact readInt64_fraction h.toNumeric negative point (by decide)
    · exact readInt64_fraction h.toNumeric negative exponent (by decide)
  rw [h.classify, h.number, noInt, read]

theorem isDigit_of_mem_digitChars {n : Nat} {c : Char} (h : c ∈ digitChars n) :
    c.isDigit = true :=
  Nat.isDigit_of_mem_toDigits (by decide) (by decide) h

theorem scientific_fraction {d : Char} {digits : List Char} (hd : d.isDigit = true)
    (all : ∀ c ∈ digits, c.isDigit = true) (exponent : Int) :
    Fraction (scientific (d :: digits) exponent) := by
  have tail : ∀ c ∈ (toString exponent).toList, c.isDigit = true ∨ c ∈ ['.', 'e', '-'] := by
    intro c hc
    rw [toList_toString, intChars] at hc
    cases sign : decide (exponent < 0) with
    | true =>
      rw [sign, signed, if_pos rfl] at hc
      rcases List.mem_cons.mp hc with rfl | hc
      · exact .inr (by decide)
      · exact .inl (isDigit_of_mem_digitChars hc)
    | false =>
      rw [sign, signed, if_neg Bool.false_ne_true] at hc
      exact .inl (isDigit_of_mem_digitChars hc)
  cases digits with
  | nil =>
    refine ⟨⟨⟨d, _, rfl, hd⟩, fun c hc => ?_⟩, .inr (by simp [scientific])⟩
    simp only [scientific, List.cons_append, List.nil_append, List.mem_cons] at hc
    rcases hc with rfl | rfl | hc
    · exact .inl hd
    · exact .inr (by decide)
    · exact tail c hc
  | cons d' digits =>
    refine ⟨⟨⟨d, _, rfl, hd⟩, fun c hc => ?_⟩, .inr (by simp [scientific])⟩
    simp only [scientific, List.cons_append, List.mem_cons, List.mem_append] at hc
    rcases hc with rfl | rfl | rfl | hc | rfl | hc
    · exact .inl hd
    · exact .inr (by decide)
    · exact .inl (all c List.mem_cons_self)
    · exact .inl (all c (List.mem_cons_of_mem _ hc))
    · exact .inr (by decide)
    · exact tail c hc

theorem positional_fraction {d : Char} {digits : List Char} (hd : d.isDigit = true)
    (all : ∀ c ∈ digits, c.isDigit = true) (point : Int) :
    Fraction (positional (d :: digits) point ['.', '0']) := by
  have zero : ('0' : Char).isDigit = true := by decide
  have digit : ∀ c ∈ d :: digits, c.isDigit = true := by
    intro c hc
    rcases List.mem_cons.mp hc with rfl | hc
    · exact hd
    · exact all c hc
  unfold positional
  split
  · refine ⟨⟨⟨'0', _, rfl, zero⟩, fun c hc => ?_⟩, .inl (by simp)⟩
    simp only [List.cons_append, List.mem_cons, List.mem_append, List.mem_replicate] at hc
    rcases hc with rfl | rfl | ⟨-, rfl⟩ | hc
    · exact .inl zero
    · exact .inr (by decide)
    · exact .inl zero
    · exact .inl (digit c (List.mem_cons.mpr hc))
  · rename_i positive
    obtain ⟨k, hk⟩ : ∃ k, point.toNat = k + 1 := ⟨point.toNat - 1, by omega⟩
    simp only [hk]
    split
    · refine ⟨⟨⟨d, _, rfl, hd⟩, fun c hc => ?_⟩, .inl (by simp)⟩
      simp only [List.mem_append, List.mem_replicate, List.mem_cons, List.not_mem_nil,
        or_false] at hc
      rcases hc with (hc | ⟨-, rfl⟩) | rfl | rfl
      · exact .inl (digit c (List.mem_cons.mpr hc))
      · exact .inl zero
      · exact .inr (by decide)
      · exact .inl zero
    · refine ⟨⟨⟨d, _, rfl, hd⟩, fun c hc => ?_⟩, .inl (by simp)⟩
      rcases List.mem_append.mp hc with hc | hc
      · exact .inl (digit c (List.mem_of_mem_take hc))
      · rcases List.mem_cons.mp hc with rfl | hc
        · exact .inr (by decide)
        · exact .inl (digit c (List.mem_of_mem_drop hc))

theorem decimalText_fraction (x : Decimal) : Fraction x.text := by
  obtain ⟨d, digits, same⟩ :=
    List.exists_cons_of_ne_nil (Nat.toDigits_ne_nil (n := x.digits) (b := 10))
  have digit : ∀ c ∈ d :: digits, c.isDigit = true := fun c hc =>
    isDigit_of_mem_digitChars (same ▸ hc)
  have hd := digit d List.mem_cons_self
  have all : ∀ c ∈ digits, c.isDigit = true := fun c hc => digit c (List.mem_cons_of_mem d hc)
  unfold Decimal.text digitChars
  simp only [same]
  split
  · exact scientific_fraction hd all _
  · exact positional_fraction hd all _

/-- The text of a finite number is a numeral with a point or an exponent. -/
theorem signedText_fraction (f : Format) (negative : Bool) {magnitude : Nat}
    (finite : magnitude < f.infinity) :
    ∃ cs, Fraction cs ∧
      (f.signed negative magnitude "0.0" Decimal.text).toList = signed negative cs := by
  have zero : Fraction "0.0".toList :=
    ⟨⟨⟨'0', _, rfl, by decide⟩, List.all_iff_forall_prop.mp (by decide)⟩, .inl (by decide)⟩
  have known : ¬ f.infinity < magnitude := by omega
  have bounded : (magnitude == f.infinity) = false := beq_false_of_ne (by omega)
  have sign : ∀ s : String, ((if negative then "-" else "") ++ s).toList =
      signed negative s.toList := by
    intro s
    cases negative <;> simp [signed]
  rw [Format.signed, if_neg known, bounded, if_neg Bool.false_ne_true, sign]
  split
  · exact ⟨_, zero, rfl⟩
  · exact ⟨_, decimalText_fraction _, by rw [String.toList_ofList]⟩

/-- A finite double whose text is read back is read as a float. -/
theorem lexes_double {x : Double} (finite : x.magnitude < double.infinity)
    (read : readDouble x.text.toList = some x) : Lexes x.text.toList [.float x] := by
  obtain ⟨cs, fraction, same⟩ := signedText_fraction double x.negative finite
  rw [Double.text, same] at read ⊢
  exact lexes_word (fraction.unbroken _) (classify_float fraction _ read)

/-- The text of a finite single is read as the double that it is read back as. -/
theorem lexes_single {x : Single} {y : Double} (finite : x.magnitude < single.infinity)
    (read : readDouble x.text.toList = some y) : Lexes x.text.toList [.float y] := by
  obtain ⟨cs, fraction, same⟩ := signedText_fraction single x.negative finite
  rw [Single.text, same] at read ⊢
  exact lexes_word (fraction.unbroken _) (classify_float fraction _ read)

/-! ## Names -/

/-- The characters of a word that is no number, symbol, label or setting. -/
structure Word (w : List Char) : Prop extends Unbroken w where
  noEq : '=' ∉ w
  noMark : w.head? ≠ some '#' ∧ w.head? ≠ some '@'
  noNumber : startsNumber w = false

theorem Word.classify {w : List Char} (h : Word w) : classify w = .ok (.word (String.ofList w)) := by
  have noEq : w.contains '=' = false := by
    rw [List.contains_eq_mem, decide_eq_false_iff_not]
    exact h.noEq
  unfold Token.classify
  split
  · exact absurd rfl h.noMark.1
  · exact absurd rfl h.noMark.2
  · rw [noEq, if_neg Bool.false_ne_true, h.noNumber, if_neg Bool.false_ne_true]

theorem lexes_name {s : String} (h : Word s.toList) : Lexes s.toList [.word s] := by
  have word := lexes_word h.toUnbroken h.classify
  rwa [String.ofList_toList] at word

theorem unbroken_cons {c : Char} {cs : List Char} (hc : endsWord c = false) (unquoted : c ≠ '"')
    (h : ∀ d ∈ cs, endsWord d = false) : Unbroken (c :: cs) where
  nonempty := List.cons_ne_nil _ _
  whole := by
    intro d hd
    rcases List.mem_cons.mp hd with rfl | hd
    · exact hc
    · exact h d hd
  unquoted := fun same => unquoted (Option.some.inj same)

theorem lexes_symbol {s : String} (whole : ∀ c ∈ s.toList, endsWord c = false) :
    Lexes ("#" ++ s).toList [.symbol s] := by
  have text : ("#" ++ s).toList = '#' :: s.toList := by
    rw [String.toList_append]
    rfl
  rw [text]
  refine lexes_word (unbroken_cons (by decide) (by decide) whole) ?_
  rw [classify, String.ofList_toList]

/-! ## Labels -/

/-- The name of the label that stands for an offset. -/
def offsetLabel (offset : Int) : String :=
  "L" ++ toString offset

theorem toList_offsetLabel (offset : Int) :
    (offsetLabel offset).toList = 'L' :: intChars offset := by
  rw [offsetLabel, String.toList_append, toList_toString]
  rfl

theorem offsetLabel_char {offset : Int} {c : Char} (hc : c ∈ (offsetLabel offset).toList) :
    endsWord c = false ∧ c ≠ ':' := by
  have digit : ∀ c ∈ "0123456789".toList, c ≠ ':' := List.all_iff_forall_prop.mp (by decide)
  rw [toList_offsetLabel] at hc
  rcases List.mem_cons.mp hc with rfl | hc
  · decide
  · refine ⟨(unbroken_int offset).whole c hc, ?_⟩
    unfold intChars at hc
    cases sign : decide (offset < 0) with
    | true =>
      rw [sign, signed, if_pos rfl] at hc
      rcases List.mem_cons.mp hc with rfl | hc
      · decide
      · exact digit c (mem_digits (isDigit_of_mem_digitChars hc))
    | false =>
      rw [sign, signed, if_neg Bool.false_ne_true] at hc
      exact digit c (mem_digits (isDigit_of_mem_digitChars hc))

theorem lexes_label (offset : Int) :
    Lexes ("@" ++ offsetLabel offset).toList [.label (offsetLabel offset)] := by
  have text : ("@" ++ offsetLabel offset).toList = '@' :: (offsetLabel offset).toList := by
    rw [String.toList_append]
    rfl
  have last : ((offsetLabel offset).toList.getLast? == some ':') = false :=
    beq_false_of_ne fun same => (offsetLabel_char (List.mem_of_getLast? same)).2 rfl
  rw [text]
  refine lexes_word
    (unbroken_cons (by decide) (by decide) fun c hc => (offsetLabel_char hc).1) ?_
  rw [classify, last, if_neg Bool.false_ne_true, String.ofList_toList]

theorem lexes_labelDef (offset : Int) :
    Lexes ("@" ++ offsetLabel offset ++ ":").toList [.labelDef (offsetLabel offset)] := by
  have text : ("@" ++ offsetLabel offset ++ ":").toList =
      '@' :: ((offsetLabel offset).toList ++ [':']) := by
    rw [String.append_assoc, String.toList_append, String.toList_append]
    rfl
  have last : ((offsetLabel offset).toList ++ [':']).getLast? = some ':' := List.getLast?_concat
  rw [text]
  refine lexes_word (unbroken_cons (by decide) (by decide) fun c hc => ?_) ?_
  · rcases List.mem_append.mp hc with hc | hc
    · exact (offsetLabel_char hc).1
    · rw [List.mem_singleton.mp hc]
      decide
  · rw [classify, last, beq_self_eq_true, if_pos rfl, List.dropLast_concat, String.ofList_toList]

/-! ## Settings -/

/-- A setting whose value is a natural number. -/
theorem lexes_version (n : Nat) :
    Lexes ("version=" ++ toString n).toList [.setting "version" (toString n)] := by
  have chars : (toString n).toList = Nat.toDigits 10 n := Nat.toList_repr
  have noEq : ∀ c ∈ "version".toList, (c != '=') = true := List.all_iff_forall_prop.mp (by decide)
  have tail : ∀ c ∈ "ersion=".toList, endsWord c = false :=
    List.all_iff_forall_prop.mp (by decide)
  have text : ("version=" ++ toString n).toList = 'v' :: ("ersion=".toList ++ (toString n).toList) := by
    rw [String.toList_append]
    rfl
  have split : 'v' :: ("ersion=".toList ++ (toString n).toList) =
      "version".toList ++ '=' :: (toString n).toList := rfl
  rw [text]
  refine lexes_word (unbroken_cons (by decide) (by decide) fun c hc => ?_) ?_
  · rcases List.mem_append.mp hc with hc | hc
    · exact tail c hc
    · rw [chars] at hc
      exact ((toDigits_numeric n).char hc).1
  · have has : ('v' :: ("ersion=".toList ++ (toString n).toList)).contains '=' = true := by
      rw [split, List.contains_eq_mem, decide_eq_true_eq]
      exact List.mem_append_right _ List.mem_cons_self
    rw [classify, has, if_pos rfl, split, List.takeWhile_append_of_pos noEq,
      List.dropWhile_append_of_pos noEq, List.takeWhile_cons_of_neg (by decide),
      List.dropWhile_cons_of_neg (by decide), List.append_nil, List.drop_one, List.tail_cons,
      String.ofList_toList, String.ofList_toList]
    · exact fun name same => by cases same
    · exact fun name same => by cases same

/-! ## Tokens of lines -/

/-- What is known of a token that was found in a line. -/
def Found : Token → Prop
  | .word s => Word s.toList
  | .symbol s => ∀ c ∈ s.toList, endsWord c = false
  | .int n => n.natAbs ≤ 9223372036854775808
  | _ => True

theorem found_of_number {w : List Char} {t : Token} (h : number w = .ok t) :
    (∃ x, t = .float x) ∨ ∃ n, t = .int n ∧ n.natAbs ≤ 9223372036854775808 := by
  have bounded : ∀ {radix : Nat} {cs : List Char} {n : Int}, readInt64 radix cs = some n →
      n.natAbs ≤ 9223372036854775808 := by
    intro radix cs n read
    obtain ⟨-, range⟩ := Option.filter_eq_some_iff.mp read
    have bounds : Int64.minValue.toInt = -9223372036854775808 ∧
        Int64.maxValue.toInt = 9223372036854775807 := by decide
    simp only [Bool.and_eq_true, decide_eq_true_eq] at range
    omega
  unfold Token.number at h
  dsimp only at h
  split at h
  · split at h
    · rename_i n read
      cases h
      refine .inr ⟨_, rfl, ?_⟩
      have small := bounded read
      have least := (-Int64.ofInt n).le_toInt
      have most := (-Int64.ofInt n).toInt_lt
      split_ifs <;> omega
    · cases h
  · split at h
    · rename_i n read
      cases h
      exact .inr ⟨_, rfl, bounded read⟩
    · split at h
      · cases h
        exact .inl ⟨_, rfl⟩
      · cases h

theorem found_of_classify {w : List Char} {t : Token} (h : Unbroken w) (ht : classify w = .ok t) :
    t.Found := by
  unfold Token.classify at ht
  split at ht
  · cases ht
    intro c hc
    rw [String.toList_ofList] at hc
    exact h.whole c (List.mem_cons_of_mem _ hc)
  · cases ht
    split <;> trivial
  · rename_i noHash noAt
    split at ht
    · cases ht
      trivial
    · rename_i noEq
      split at ht
      · rcases found_of_number ht with ⟨x, rfl⟩ | ⟨n, rfl, small⟩
        · trivial
        · exact small
      · rename_i noNumber
        cases ht
        obtain ⟨c, w, rfl⟩ := List.exists_cons_of_ne_nil h.nonempty
        have noEq : '=' ∉ c :: w := by simpa using noEq
        rw [Found, String.toList_ofList]
        refine ⟨h, noEq, ⟨fun head => ?_, fun head => ?_⟩, by simpa using noNumber⟩
        · cases head
          exact noHash w rfl
        · cases head
          exact noAt w rfl

section

variable {P : Token → Prop} (strings : ∀ s, P (.string s))
  (words : ∀ {w : List Char} {t : Token}, Unbroken w → classify w = .ok t → P t)
include strings words

theorem forall_of_tokenizeFrom {cs : List Char} {done ts : List Token}
    (h : tokenizeFrom done cs = .ok ts) (found : ∀ t ∈ done, P t) : ∀ t ∈ ts, P t := by
  induction n : cs.length using Nat.strongRecOn generalizing cs done with
  | ind n ih =>
    subst n
    cases cs with
    | nil =>
      rw [tokenizeFrom_nil] at h
      cases h
      exact fun t ht => found t (List.mem_reverse.mp ht)
    | cons c rest =>
      rw [tokenizeFrom_cons] at h
      split at h
      · exact ih _ (Nat.lt_succ_self _) h found rfl
      · rename_i noBlank
        split at h
        · cases h
          exact fun t ht => found t (List.mem_reverse.mp ht)
        · rename_i noComment
          split at h
          · split at h
            · cases h
            · rename_i s rest' read
              refine ih _ (Nat.lt_succ_of_lt (length_readString read)) h (fun t ht => ?_) rfl
              rcases List.mem_cons.mp ht with rfl | ht
              · exact strings _
              · exact found t ht
          · rename_i noQuote
            split at h
            · cases h
            · rename_i token ht
              refine ih _ (Nat.lt_succ_of_le (length_dropWhile_le _ _)) h (fun t hmem => ?_) rfl
              rcases List.mem_cons.mp hmem with rfl | hmem
              · refine words (unbroken_cons ?_ ?_ fun d hd => ?_) ht
                · rw [endsWord, Bool.or_eq_false_iff]
                  exact ⟨by simpa using noBlank, by simpa using noComment⟩
                · exact fun same => noQuote (beq_iff_eq.mpr same)
                · simpa using List.mem_takeWhile_imp hd
              · exact found t hmem

/-- A line consists of strings and of what its words are. -/
theorem forall_of_tokenize {cs : List Char} {ts : List Token} (h : tokenize cs = .ok ts) :
    ∀ t ∈ ts, P t :=
  forall_of_tokenizeFrom strings words h fun _ ht => absurd ht List.not_mem_nil

end

/-- The words, symbols and integers of a line. -/
theorem found_of_tokenize {cs : List Char} {ts : List Token} (h : tokenize cs = .ok ts) :
    ∀ t ∈ ts, t.Found :=
  forall_of_tokenize (fun _ => trivial) found_of_classify h

/-! ## Words in another case -/

theorem isUpper_iff {c : Char} : c.isUpper = true ↔ 65 ≤ c.toNat ∧ c.toNat ≤ 90 := by
  unfold Char.isUpper
  simp only [ge_iff_le, UInt32.le_iff_toNat_le, decide_eq_true_eq]
  exact Iff.rfl

theorem toNat_toLower (c : Char) :
    c.toLower.toNat = if c.isUpper then c.toNat + 32 else c.toNat := by
  unfold Char.toLower
  split
  · rename_i range
    have upper : c.isUpper = true := by
      unfold Char.isUpper
      simpa using range
    have bounds := isUpper_iff.mp upper
    have code : c.val.toNat = c.toNat := rfl
    have shift : ('a'.val - 'A'.val).toNat = 32 := by decide
    rw [if_pos upper]
    change (c.val + ('a'.val - 'A'.val)).toNat = _
    rw [UInt32.toNat_add]
    omega
  · rename_i range
    have other : c.isUpper = false := by
      unfold Char.isUpper
      simpa using range
    rw [other]
    rfl

/-- The codes of letters. -/
def Letter (n : Nat) : Prop :=
  65 ≤ n ∧ n ≤ 90 ∨ 97 ≤ n ∧ n ≤ 122

theorem toLower_cases {c d : Char} (h : c.toLower = d.toLower) :
    c = d ∨ Letter c.toNat ∧ Letter d.toNat := by
  have codes : c.toLower.toNat = d.toLower.toNat := congrArg Char.toNat h
  rw [toNat_toLower, toNat_toLower] at codes
  by_cases hc : c.isUpper = true <;> by_cases hd : d.isUpper = true
  · rw [if_pos hc, if_pos hd] at codes
    exact .inl (Char.toNat_inj.mp (by omega))
  · have range := isUpper_iff.mp hc
    rw [if_pos hc, if_neg hd] at codes
    exact .inr ⟨.inl range, .inr (by omega)⟩
  · have range := isUpper_iff.mp hd
    rw [if_neg hc, if_pos hd] at codes
    exact .inr ⟨.inr (by omega), .inl range⟩
  · rw [if_neg hc, if_neg hd] at codes
    exact .inl (Char.toNat_inj.mp codes)

/-- Letters mark nothing. -/
theorem letter_plain {c : Char} (h : Letter c.toNat) :
    endsWord c = false ∧ c.isDigit = false ∧ c ∉ ['"', '=', '#', '@', '-'] := by
  have named : Char.ofNat c.toNat = c := Char.ofNat_toNat c
  generalize c.toNat = n at named h
  subst named
  rcases h with ⟨low, high⟩ | ⟨low, high⟩
  all_goals interval_cases n <;> decide

theorem startsNumber_cons (c : Char) (cs : List Char) : startsNumber (c :: cs) =
    if c = '-' ∧ cs ≠ [] then (cs.head?.any Char.isDigit) else c.isDigit := by
  unfold startsNumber
  split
  · rename_i d rest same
    cases same
    rw [if_pos ⟨rfl, List.cons_ne_nil _ _⟩]
    rfl
  · rename_i d rest other same
    cases same
    rw [if_neg]
    rintro ⟨rfl, some⟩
    obtain ⟨d, ds, rfl⟩ := List.exists_cons_of_ne_nil some
    exact other d ds rfl rfl
  · rename_i same
    cases same

/-! ### Texts in another case -/

/-- At each place the first text has the character of the second one, or a letter. -/
def LettersApart (v w : List Char) : Prop :=
  ∀ (i : Nat) (c : Char), v[i]? = some c → w[i]? = some c ∨ Letter c.toNat

theorem lettersApart_of_toLower {v w : List Char}
    (same : v.map Char.toLower = w.map Char.toLower) : LettersApart v w := by
  intro i c hc
  have at_i := congrArg (·[i]?) same
  rw [List.getElem?_map, List.getElem?_map, hc, Option.map_some] at at_i
  obtain ⟨d, hd, alike⟩ := Option.map_eq_some_iff.mp at_i.symm
  rcases toLower_cases alike with rfl | ⟨-, letter⟩
  · exact .inl hd
  · exact .inr letter

namespace LettersApart

variable {v w : List Char}

theorem mem (h : LettersApart v w) {c : Char} (hc : c ∈ v) : c ∈ w ∨ Letter c.toNat := by
  obtain ⟨i, hi⟩ := List.mem_iff_getElem?.mp hc
  exact (h i c hi).imp_left List.mem_of_getElem?

theorem head (h : LettersApart v w) {c : Char} (hc : v.head? = some c) :
    w.head? = some c ∨ Letter c.toNat := by
  rw [List.head?_eq_getElem?] at hc ⊢
  exact h 0 c hc

theorem tail {c d : Char} (h : LettersApart (c :: v) (d :: w)) : LettersApart v w :=
  fun i => h (i + 1)

/-- A mark at the start is that of the other text. -/
theorem head_mark (h : LettersApart v w) {c : Char} (mark : c ∈ ['"', '=', '#', '@', '-'])
    (other : w.head? ≠ some c) : v.head? ≠ some c :=
  fun hc => (letter_plain ((h.head hc).resolve_left other)).2.2 mark

/-- A number starts with a digit, or with a minus before a digit, and none of these is a
letter. -/
theorem noNumber (h : LettersApart v w) (length : v.length = w.length)
    (noNumber : startsNumber w = false) : startsNumber v = false := by
  cases v with
  | nil => rfl
  | cons c v =>
    obtain ⟨d, w, rfl⟩ := List.exists_cons_of_length_eq_add_one length.symm
    have empty : v = [] ↔ w = [] := by
      rw [← List.length_eq_zero_iff, ← List.length_eq_zero_iff, Nat.succ.inj length]
    rw [startsNumber_cons] at noNumber ⊢
    rcases h.head rfl with same | letter
    · cases same
      simp only [ne_eq, empty] at noNumber ⊢
      split at noNumber
      · rename_i minus
        rw [if_pos minus]
        cases he : v.head? with
        | none => rfl
        | some e =>
          rcases h.tail.head he with hw | letter
          · rw [hw] at noNumber
            exact noNumber
          · exact (letter_plain letter).2.1
      · rename_i plain
        rw [if_neg plain]
        exact noNumber
    · obtain ⟨-, noDigit, noMark⟩ := letter_plain letter
      rw [if_neg]
      · exact noDigit
      · rintro ⟨rfl, -⟩
        exact noMark (by decide)

end LettersApart

/-- A word in another case is a word. -/
theorem Word.of_same {a b : String} (h : Word a.toList) (same : Text.sameName b a = true) :
    Word b.toList := by
  have lower : b.toList.map Char.toLower = a.toList.map Char.toLower :=
    String.ofList_injective (Text.sameName_iff.mp same)
  have apart := lettersApart_of_toLower lower
  refine ⟨⟨?nonempty, ?whole, apart.head_mark (by decide) h.unquoted⟩, ?noEq,
    ⟨apart.head_mark (by decide) h.noMark.1, apart.head_mark (by decide) h.noMark.2⟩, ?noNumber⟩
  case nonempty =>
    intro empty
    rw [empty] at lower
    exact h.nonempty (List.map_eq_nil_iff.mp lower.symm)
  case whole =>
    intro c hc
    rcases apart.mem hc with hc | letter
    · exact h.whole c hc
    · exact (letter_plain letter).1
  case noEq =>
    intro hc
    rcases apart.mem hc with hc | letter
    · exact h.noEq hc
    · exact absurd (by decide) (letter_plain letter).2.2
  case noNumber =>
    exact apart.noNumber (by simpa using congrArg List.length lower) h.noNumber

end Token

end Lingo
