import Lingo.Proofs.Lexing

/-!
# Quoted texts, read

What the reader of strings makes of a text that has been quoted. It knows the
escapes of the quote, the backslash, the line feed, the carriage return and the
tab. Of any other escape it only drops the backslash, so NUL is read as `0`, and a
character that does not show as `u` and its code point in braces (`rereadChar`).

* `readString_quoteChar`: one quoted character, read;
* `tokenize_quote`: a quoted text is one token, and it is the text itself exactly
  if all its characters are printable;
* `reread_reread`: what has been read once is printable, so it stays.
-/

namespace Lingo.Token

/-! ## Characters -/

/-- Whether a character is quoted as itself, or by an escape that is read
back. -/
def printable (c : Char) : Bool :=
  Text.quoteChar c == [c] || ['"', '\\', '\n', '\r', '\t'].contains c

/-- What is read of a quoted character. -/
def rereadChar (c : Char) : List Char :=
  if printable c then [c] else (Text.quoteChar c).tail

theorem rereadChar_printable {c : Char} (h : printable c = true) : rereadChar c = [c] :=
  if_pos h

/-- The characters of the escapes that the reader does not know, apart from
their backslash. -/
def escapeChars : List Char :=
  "u0123456789abcdef\x7b\x7d".toList

theorem escapeChars_of_first {c : Char} (h : c ∈ ['0', 'u']) : c ∈ escapeChars := by
  have all : ∀ c ∈ ['0', 'u'], c ∈ escapeChars := List.all_iff_forall_prop.mp (by decide)
  exact all c h

theorem mem_hexDigits {n : Nat} {c : Char} (h : c ∈ Text.hexDigits n) : c ∈ escapeChars := by
  have digits : ∀ d < 16, d.digitChar ∈ escapeChars := by decide
  unfold Text.hexDigits at h
  induction n using Nat.strongRecOn with
  | ind n ih =>
    rw [Nat.toDigits_eq_if (by decide)] at h
    split at h
    · rename_i small
      rw [List.mem_singleton.mp h]
      exact digits n small
    · rename_i large
      rcases List.mem_append.mp h with h | h
      · exact ih (n / 16) (by omega) h
      · rw [List.mem_singleton.mp h]
        exact digits _ (Nat.mod_lt n (by decide))

/-- The escape of a character that is not printable: a backslash, then a
character that the reader does not take for another. -/
theorem quoteChar_unprintable {c : Char} (h : printable c = false) :
    ∃ d ds, Text.quoteChar c = '\\' :: d :: ds ∧ d ∈ ['0', 'u'] ∧ ∀ e ∈ ds, e ∈ escapeChars := by
  have others := h
  rw [printable, Bool.or_eq_false_iff, List.contains_eq_mem, decide_eq_false_iff_not] at others
  obtain ⟨notItself, unknown⟩ := others
  simp only [List.mem_cons, List.not_mem_nil, or_false, not_or] at unknown
  unfold Text.quoteChar at notItself ⊢
  simp only [beq_iff_eq, unknown, if_false] at notItself ⊢
  split
  · exact ⟨'0', [], rfl, by decide, nofun⟩
  · rename_i notNul
    rw [if_neg notNul] at notItself
    split
    · rename_i plain
      rw [if_pos plain, beq_self_eq_true] at notItself
      exact absurd notItself.symm Bool.false_ne_true
    · refine ⟨'u', '\x7b' :: (Text.hexDigits c.toNat ++ ['\x7d']), rfl, by decide, fun e he => ?_⟩
      rcases List.mem_cons.mp he with rfl | he
      · decide
      · rcases List.mem_append.mp he with he | he
        · exact mem_hexDigits he
        · rw [List.mem_singleton.mp he]
          decide

theorem rereadChar_unprintable {c : Char} (h : printable c = false) :
    rereadChar c = (Text.quoteChar c).tail :=
  if_neg (by rw [h]; exact Bool.false_ne_true)

/-- Characters of escapes are written as they are, and mean themselves. -/
theorem plain_escapeChars :
    ∀ c ∈ escapeChars, printable c = true ∧ unescape c = c ∧
      (c == '"') = false ∧ (c == '\\') = false ∧ c ≠ '\n' ∧ c ≠ '\r' :=
  List.all_iff_forall_prop.mp (by decide)

/-! ## Reading -/

/-- Characters of escapes are read as they are. -/
theorem readString_escapeChars {cs : List Char} (h : ∀ c ∈ cs, c ∈ escapeChars)
    (done rest : List Char) :
    readString done (cs ++ rest) = readString (cs.reverse ++ done) rest := by
  induction cs generalizing done with
  | nil => rfl
  | cons c cs ih =>
    obtain ⟨-, -, noQuote, noEscape, -⟩ := plain_escapeChars c (h c List.mem_cons_self)
    rw [List.cons_append, readString.eq_def]
    simp only [noQuote, noEscape, Bool.false_eq_true, if_false]
    rw [ih fun d hd => h d (List.mem_cons_of_mem c hd), List.reverse_cons, List.append_assoc]
    rfl

theorem readString_printable {c : Char} (h : printable c = true) (done rest : List Char) :
    readString done (Text.quoteChar c ++ rest) = readString (c :: done) rest := by
  simp only [printable, Bool.or_eq_true, beq_iff_eq, List.contains_eq_mem, decide_eq_true_eq,
    List.mem_cons, List.not_mem_nil, or_false] at h
  rcases h with itself | rfl | rfl | rfl | rfl | rfl
  · have noQuote : (c == '"') = false := beq_false_of_ne fun same => by
      rw [same] at itself
      exact absurd itself (by decide)
    have noEscape : (c == '\\') = false := beq_false_of_ne fun same => by
      rw [same] at itself
      exact absurd itself (by decide)
    rw [itself, List.cons_append, List.nil_append, readString.eq_def]
    simp only [noQuote, noEscape, Bool.false_eq_true, if_false]
  all_goals rfl

/-- A quoted character, read. -/
theorem readString_quoteChar (c : Char) (done rest : List Char) :
    readString done (Text.quoteChar c ++ rest) =
      readString ((rereadChar c).reverse ++ done) rest := by
  cases h : printable c with
  | true => rw [rereadChar_printable h, readString_printable h]; rfl
  | false =>
    obtain ⟨d, ds, quoted, first, others⟩ := quoteChar_unprintable h
    have itself := (plain_escapeChars d (escapeChars_of_first first)).2.1
    rw [rereadChar_unprintable h, quoted, List.tail_cons, List.cons_append, readString.eq_def]
    simp only [show ('\\' == '"') = false by decide, Bool.false_eq_true, if_false, beq_self_eq_true,
      if_true, List.cons_append]
    rw [itself, readString_escapeChars others, List.reverse_cons, List.append_assoc]
    rfl

/-- A text, read up to the quote that ends it. -/
theorem readString_quote (s done rest : List Char) :
    readString done (s.flatMap Text.quoteChar ++ '"' :: rest) =
      some (done.reverse ++ s.flatMap rereadChar, rest) := by
  induction s generalizing done with
  | nil =>
    rw [List.flatMap_nil, List.nil_append, readString.eq_def, List.flatMap_nil, List.append_nil]
    rfl
  | cons c s ih =>
    rw [List.flatMap_cons, List.append_assoc, readString_quoteChar, ih, List.reverse_append,
      List.reverse_reverse, List.flatMap_cons, List.append_assoc]

/-! ## Texts -/

theorem oneLine_quoteChar (c : Char) : OneLine (Text.quoteChar c) := by
  have escapes : ∀ c ∈ ['"', '\\', '\n', '\r', '\t'], OneLine (Text.quoteChar c) :=
    List.all_iff_forall_prop.mp (by decide)
  cases h : printable c with
  | true =>
    rw [printable, Bool.or_eq_true] at h
    rcases h with itself | escaped
    · intro d hd
      rw [beq_iff_eq.mp itself, List.mem_singleton] at hd
      subst hd
      constructor
      · rintro rfl
        exact absurd itself (by decide)
      · rintro rfl
        exact absurd itself (by decide)
    · exact escapes c (by simpa using escaped)
  | false =>
    obtain ⟨d, ds, quoted, first, others⟩ := quoteChar_unprintable h
    intro e he
    rw [quoted] at he
    rcases List.mem_cons.mp he with rfl | he
    · decide
    · have char : e ∈ escapeChars := by
        rcases List.mem_cons.mp he with rfl | he
        · exact escapeChars_of_first first
        · exact others e he
      exact (plain_escapeChars e char).2.2.2.2

theorem oneLine_quote (s : String) : OneLine (Text.quote s).toList := by
  intro c hc
  rw [Text.quote, String.toList_ofList, Text.quoteChars] at hc
  rcases List.mem_append.mp hc with hc | hc
  · rcases List.mem_cons.mp hc with rfl | hc
    · decide
    · obtain ⟨d, hd, hc⟩ := List.mem_flatMap.mp hc
      exact oneLine_quoteChar d c hc
  · rw [List.mem_singleton.mp hc]
    decide

/-- What is read of a quoted text. -/
def reread (s : String) : String :=
  String.ofList (s.toList.flatMap rereadChar)

/-- A quoted text is one token, wherever it stands in a line. -/
theorem lexes_reread (s : String) : Lexes (Text.quote s).toList [.string (reread s)] := by
  refine ⟨oneLine_quote s, fun done rest _ => ?_⟩
  rw [Text.quote, String.toList_ofList, Text.quoteChars, List.cons_append, List.cons_append,
    List.append_assoc, List.singleton_append, tokenizeFrom_cons]
  simp only [show (Text.isBlank '"' || '"' == ',') = false by decide,
    show ('"' == ';') = false by decide, Bool.false_eq_true, if_false, beq_self_eq_true, if_true]
  rw [readString_quote, List.reverse_nil, List.nil_append]
  rfl

/-- A text is read back exactly if all its characters are printable. -/
theorem flatMap_rereadChar_eq_self {s : List Char} :
    s.flatMap rereadChar = s ↔ ∀ c ∈ s, printable c = true := by
  have printed : ∀ d ∈ ['0', 'u'], printable d = true := List.all_iff_forall_prop.mp (by decide)
  induction s with
  | nil => exact ⟨fun _ => nofun, fun _ => rfl⟩
  | cons c s ih =>
    rw [List.flatMap_cons, List.forall_mem_cons]
    cases h : printable c with
    | true =>
      rw [rereadChar_printable h, List.singleton_append, List.cons.injEq]
      exact and_congr (iff_of_true rfl rfl) ih
    | false =>
      obtain ⟨d, ds, quoted, first, -⟩ := quoteChar_unprintable h
      rw [rereadChar_unprintable h, quoted, List.tail_cons, List.cons_append, List.cons.injEq]
      refine ⟨fun same => ?_, fun ⟨printable, _⟩ => absurd printable Bool.false_ne_true⟩
      rw [same.1] at first
      exact absurd ((printed c first).symm.trans h) Bool.false_ne_true.symm

theorem reread_eq_self {s : String} : reread s = s ↔ ∀ c ∈ s.toList, printable c = true := by
  rw [← flatMap_rereadChar_eq_self, reread, ← String.toList_inj, String.toList_ofList]

/-- What has been read once is read back from then on. -/
theorem reread_reread (s : String) : reread (reread s) = reread s := by
  refine reread_eq_self.mpr fun c hc => ?_
  rw [reread, String.toList_ofList] at hc
  obtain ⟨d, -, hc⟩ := List.mem_flatMap.mp hc
  cases h : printable d with
  | true =>
    rw [rereadChar_printable h, List.mem_singleton] at hc
    exact hc ▸ h
  | false =>
    obtain ⟨e, es, quoted, first, others⟩ := quoteChar_unprintable h
    rw [rereadChar_unprintable h, quoted, List.tail_cons] at hc
    rcases List.mem_cons.mp hc with rfl | hc
    · exact (plain_escapeChars c (escapeChars_of_first first)).1
    · exact (plain_escapeChars c (others c hc)).1

theorem lexes_quote {s : String} (h : ∀ c ∈ s.toList, printable c = true) :
    Lexes (Text.quote s).toList [.string s] := by
  have line := lexes_reread s
  rwa [reread_eq_self.mpr h] at line

/-- A quoted text is one token. The text comes back exactly if its characters are
all printable; NUL is not, nor is a combining accent. -/
theorem tokenize_quote (s : String) :
    tokenize (Text.quote s).toList = .ok [.string (reread s)] ∧
      (reread s = s ↔ ∀ c ∈ s.toList, printable c = true) :=
  ⟨tokenize_piece (lexes_reread s), reread_eq_self⟩

/-- Not every text is read back: NUL is read as a zero. -/
theorem tokenize_quote_nul :
    ¬ ∀ s : String, tokenize (Text.quote s).toList = .ok [.string s] := by
  intro all
  have read : tokenize (Text.quote "\x00").toList = .ok [.string (reread "\x00")] :=
    tokenize_piece (lexes_reread "\x00")
  rw [all "\x00"] at read
  have zero : reread "\x00" = "0" := by decide
  rw [zero] at read
  simp at read

example : reread "cafe\u0301" = "cafeu\x7b301\x7d" := by decide +kernel

end Lingo.Token
