import Lingo.Proofs.Rereading

/-!
# Labels of listings

The labels that a listing defines and those that its jumps name, as its lines are read.

* `labels_handlerLines`: the jumps of a handler name the labels of all offsets that they lead
  to, and the lines of the handler define those of them that are boundaries;
* `labels_listed`: when a label is defined once, and when a listing is assembled again.
-/

namespace Lingo

open Assembly Layout
open Token (Heads Prints offsetLabel)

namespace Listing

/-- The labels that lines define. -/
def definedLabels (lines : List String) : List String :=
  lines.filterMap fun text => labelOf (lineTokens text.toList)

/-- The labels that the jumps of lines name. -/
def usedLabels (lines : List String) : List String :=
  lines.filterMap fun text => jumpLabel? (lineTokens text.toList)

variable {lib : Library} {s : Script} {i : Instruction} {targets : List Int}

/-! ## Labels of each line -/

@[simp] theorem definedLabels_append (xs ys : List String) :
    definedLabels (xs ++ ys) = definedLabels xs ++ definedLabels ys :=
  List.filterMap_append

@[simp] theorem usedLabels_append (xs ys : List String) :
    usedLabels (xs ++ ys) = usedLabels xs ++ usedLabels ys :=
  List.filterMap_append

theorem labels_prints {text : String} {tokens : List Token} (h : Prints text tokens) :
    definedLabels [text] = (labelOf tokens).toList ∧
      usedLabels [text] = (jumpLabel? tokens).toList := by
  have read : lineTokens text.toList = tokens := by rw [lineTokens, h.tokens]
  cases hd : labelOf tokens <;> cases hu : jumpLabel? tokens <;>
    simp [definedLabels, usedLabels, read, hd, hu]

/-- A line that starts with a word defines no label. -/
theorem definedLabels_heads {text word : String} {P : List Token → Prop} (h : Heads text word P) :
    definedLabels [text] = [] := by
  obtain ⟨args, read, -⟩ | ⟨fault, refused, -⟩ := h.read
  · simp [definedLabels, lineTokens, read, labelOf]
  · simp [definedLabels, lineTokens, refused, labelOf]

theorem usedLabels_heads {text word : String} {P : List Token → Prop} (h : Heads text word P)
    (silent : ∀ args, P args → jumpLabel? (.word word :: args) = none) :
    usedLabels [text] = [] := by
  obtain ⟨args, read, hargs⟩ | ⟨fault, refused, -⟩ := h.read
  · simp [usedLabels, lineTokens, read, silent args hargs]
  · simp [usedLabels, lineTokens, refused, jumpLabel?, statementOf]

/-- A directive is no jump. -/
theorem jumpLabel?_directive {word : String} (h : Text.asciiLower word ∈ directives)
    (args : List Token) : jumpLabel? (.word word :: args) = none := by
  unfold jumpLabel?
  split
  · rename_i same
    cases same
    rw [ofMnemonic?_directive h]
    rfl
  · rfl

theorem labels_directive {text word : String} {P : List Token → Prop} (h : Heads text word P)
    (directive : Text.asciiLower word ∈ directives) :
    definedLabels [text] = [] ∧ usedLabels [text] = [] :=
  ⟨definedLabels_heads h, usedLabels_heads h fun args _ => jumpLabel?_directive directive args⟩

theorem labels_labelLines (targets : List Int) (offset : Nat) :
    definedLabels (labelLines targets offset) = marks targets [(offset : Int)] ∧
      usedLabels (labelLines targets offset) = [] := by
  unfold labelLines marks
  by_cases leads : targets.contains (offset : Int) = true
  · rw [if_pos leads, List.filter_cons_of_pos leads]
    exact labels_prints (Token.prints_label offset)
  · rw [if_neg leads, List.filter_cons_of_neg leads]
    exact ⟨rfl, rfl⟩

theorem labels_instructionLine (whole : lib.names.Whole) (valid : i.opcode ≠ .invalid) :
    definedLabels [instructionLine lib s i] = [] ∧
      usedLabels [instructionLine lib s i] = (i.jumpTarget?.map (offsetLabel ·)).toList := by
  cases jump : i.jumpTarget? with
  | some target =>
    have isJump := i.isJump_of_jumpTarget? jump
    have line : Prints (instructionLine lib s i) _ := prints_jump jump
    have named : jumpLabel? [.word i.opcode.mnemonic, .label (offsetLabel target)] =
        some (offsetLabel target) := by
      simp [jumpLabel?, statementOf, ofMnemonic?_mnemonic _ valid, isJump]
    obtain ⟨defined, used⟩ := labels_prints line
    exact ⟨defined, used.trans (congrArg Option.toList named)⟩
  | none =>
    have heads : Heads (instructionLine lib s i) _ _ := heads_operation whole valid jump
    refine ⟨definedLabels_heads heads, usedLabels_heads heads fun args noLabel => ?_⟩
    unfold jumpLabel?
    split
    · rename_i word name same
      cases same
      exact absurd (List.mem_singleton.mpr rfl) (noLabel name)
    · rfl

/-- Lines that are printed of the elements of a list, with the labels of each. -/
theorem labels_flatMap {α : Type} (print defined used : α → List String) {xs : List α}
    (each : ∀ x ∈ xs, definedLabels (print x) = defined x ∧ usedLabels (print x) = used x) :
    definedLabels (xs.flatMap print) = xs.flatMap defined ∧
      usedLabels (xs.flatMap print) = xs.flatMap used := by
  induction xs with
  | nil => exact ⟨rfl, rfl⟩
  | cons x xs ih =>
    obtain ⟨first, rest⟩ := List.forall_mem_cons.mp each
    simp [first, ih rest]

/-- A listed handler defines the labels of the offsets that its jumps lead to, as far as these
are boundaries, and its jumps name the labels of all offsets that they lead to. -/
theorem labels_handlerLines (whole : lib.names.Whole) {h : Handler}
    (valid : ∀ i ∈ h.code, i.opcode ≠ .invalid) :
    definedLabels (handlerLines lib s h) = marks h.targets h.boundaries ∧
      usedLabels (handlerLines lib s h) = h.targets.map (offsetLabel ·) := by
  have header := labels_directive (Token.heads_handler whole h) (by decide)
  have close := labels_directive
    ((Token.prints_end 2 "  end" rfl).heads (P := fun _ => True) trivial) (by decide)
  have locals : definedLabels (if (lib.namesOf h.locals).isEmpty then []
        else ["    local " ++ ", ".intercalate (lib.namesOf h.locals)]) = [] ∧
      usedLabels (if (lib.namesOf h.locals).isEmpty then []
        else ["    local " ++ ", ".intercalate (lib.namesOf h.locals)]) = [] := by
    split
    · exact ⟨rfl, rfl⟩
    · exact labels_directive (Token.heads_local whole h.locals) (by decide)
  have last := labels_labelLines h.targets h.byteLength
  have body := labels_flatMap
    (fun i => labelLines h.targets i.offset ++ [instructionLine lib s i])
    (fun i => marks h.targets [(i.offset : Int)])
    (fun i => (i.jumpTarget?.map (offsetLabel ·)).toList) fun i hi => by
      have label := labels_labelLines h.targets i.offset
      have line := labels_instructionLine (s := s) whole (valid i (Array.mem_toList_iff.mp hi))
      simp [label, line]
  have used : h.targets.map (offsetLabel ·) =
      h.code.toList.flatMap fun i => (i.jumpTarget?.map (offsetLabel ·)).toList := by
    rw [Handler.targets, List.map_filterMap, List.filterMap_eq_flatMap_toList]
  rw [Handler.boundaries, marks_append, marks_map, used]
  simp only [handlerLines_eq, definedLabels_append, usedLabels_append]
  rw [header.1, header.2, locals.1, locals.2, body.1, body.2, last.1, last.2, close.1, close.2]
  simp

end Listing

/-! ## Labels of assembled libraries -/

open Listing in
/-- Of every assembled library: the jumps that are listed for a handler name the labels of the
offsets that they lead to, and each of these is defined once in the lines of that handler if
the offset is a boundary, and else not at all. A jump that is written with a label leads to a
boundary, if its handler has less than 2³¹ bytes, and if all jumps of the handler are, all lead
to boundaries. Assembling the listing again does not fail for labels that are defined twice,
and for one that is not defined just if it belongs to a jump that leads to no boundary, and
succeeds only if there is none. -/
theorem labels_listed {text : String} {lib : Library} (accepted : assemble text = .ok lib) :
    (∀ s ∈ lib.scripts, ∀ h ∈ s.handlers,
      usedLabels (handlerLines lib s h) = h.targets.map (offsetLabel ·) ∧
        ∀ n ∈ h.targets, (definedLabels (handlerLines lib s h)).count (offsetLabel n) =
          if n ∈ h.boundaries then 1 else 0) ∧
    List.Forall₂
      (fun lines h => h.byteLength < 2147483648 →
        (∀ before line after name, lines = before ++ line :: after → jumpLabel? line = some name →
          ∃ i, ∃ n ∈ h.boundaries,
            h.code[instructionCount before]? = some i ∧ i.jumpTarget? = some n) ∧
        ((∀ line ∈ lines, (opcodeOf line).any Opcode.isJump = true →
          (jumpLabel? line).isSome = true) → h.Closed))
      (handlerBodies text) lib.handlers ∧
    (∀ again, assemble (listing lib) = .ok again →
      ∀ s ∈ lib.scripts, ∀ h ∈ s.handlers, h.Closed) ∧
    ∀ e name, assemble (listing lib) = .error e → e.fault.label? = some name →
      ∃ s ∈ lib.scripts, ∃ h ∈ s.handlers, ∃ n ∈ h.targets, n ∉ h.boundaries ∧
        e.fault = .undefinedLabel (offsetLabel n) := by
  refine ⟨fun s hs h hh => ?_, ?_, assemble_listing_labels accepted⟩
  · have assembled := assembled_of_assemble accepted hs hh
    have labels := labels_handlerLines (s := s) (names_whole accepted) assembled.valid
    refine ⟨labels.2, fun n target => ?_⟩
    rw [labels.1, (nodup_marks assembled.boundaries).count]
    exact if_congr (mem_marks.trans (and_iff_right target)) rfl rfl
  · refine (assemble_spelled accepted).imp fun lines h ⟨body, labels, spells, laid⟩ short => ?_
    refine ⟨fun before line after name split written => ?_, spells.closed laid short⟩
    exact spells.jump_boundary laid short split written

/-- The forward jump of the loop and the backward one are listed with the labels of the
offsets 9 and 0, which are the end of the code and its start. -/
theorem labels_listed_loop :
    assemble loopText = .ok loopLibrary ∧ ∀ s ∈ loopLibrary.scripts, ∀ h ∈ s.handlers,
      Listing.usedLabels (Listing.handlerLines loopLibrary s h) = ["L9", "L0"] ∧
        (Listing.definedLabels (Listing.handlerLines loopLibrary s h)).count "L9" = 1 ∧
        (Listing.definedLabels (Listing.handlerLines loopLibrary s h)).count "L0" = 1 := by
  refine ⟨assemble_loopText, fun s hs h hh => ?_⟩
  obtain ⟨used, defined⟩ := (labels_listed assemble_loopText).1 s hs h hh
  cases Array.mem_singleton.mp hs
  cases Array.mem_singleton.mp hh
  have targets : loopHandler.targets = [9, 0] := by decide
  have boundaries : loopHandler.boundaries = [0, 2, 5, 7, 9] := by decide
  rw [targets] at used defined
  rw [boundaries] at defined
  exact ⟨used, defined 9 (by decide), defined 0 (by decide)⟩

/-- A jump that is written with a number. -/
def farJumpText : String :=
  "script 1 movie\nhandler go\nJMP 100\nend\nend\n"

def farJumpHandler : Handler where
  nameId := 0
  vectorPos := 0
  code := #[⟨0, .jmp, 0x53, 100⟩]

def farJumpLibrary : Library where
  names := ⟨#["go"]⟩
  scripts := #[{ member := 1, kind := .movie, handlers := #[farJumpHandler] }]

theorem assemble_farJumpText : assemble farJumpText = .ok farJumpLibrary :=
  ok_of_toOption (by decide +kernel)

/-- A jump out of the code is listed with a label that is not defined, so that the listing is
not assembled. -/
theorem labels_listed_far_jump :
    assemble farJumpText = .ok farJumpLibrary ∧
      (∀ s ∈ farJumpLibrary.scripts, ∀ h ∈ s.handlers,
        Listing.usedLabels (Listing.handlerLines farJumpLibrary s h) = ["L100"] ∧
          Listing.definedLabels (Listing.handlerLines farJumpLibrary s h) = []) ∧
      assemble (listing farJumpLibrary) = .error ⟨4, .undefinedLabel "L100"⟩ := by
  refine ⟨assemble_farJumpText, by decide +kernel, ?_⟩
  have refused : (match assemble (listing farJumpLibrary) with
      | .ok _ => none
      | .error e => some e) = some (⟨4, .undefinedLabel "L100"⟩ : AsmError) := by decide +kernel
  split at refused
  · cases refused
  · rename_i e failed
    cases refused
    exact failed

end Lingo
