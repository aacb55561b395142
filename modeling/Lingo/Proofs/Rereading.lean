import Lingo.Proofs.Boundaries
import Lingo.Proofs.Outlines
import Lingo.Proofs.Rounds

/-!
# Reading any listing

Whether the listing of an assembled library is read to its end or not: of labels, it can only be
at fault for those that no line defines. In a handler, `Inside` follows which labels have been
defined and which are named by operands, line by line.

* `runs_handlerLines`: the lines of a handler are read to its end, or are at fault for the label
  of a jump that leads to no boundary, or for what is not about a label;
* `runs_libraryLines`: so are those of a library;
* `assemble_listing_labels`: and so is the listing.
-/

namespace Lingo

open Assembly Layout
open Token (Heads Prints offsetLabel)

/-- The label that an operand names. -/
def Pending.label? (p : Pending) : Option String :=
  match p.operand with
  | .label name => some name
  | _ => none

theorem Pending.label?_eq_some_iff {p : Pending} {name : String} :
    p.label? = some name ↔ p.operand = .label name := by
  unfold Pending.label?
  cases p.operand <;> simp

theorem Listing.handlerLines_eq (lib : Library) (s : Script) (h : Handler) :
    Listing.handlerLines lib s h =
      ["  handler " ++ lib.names.name h.nameId ++
          (if (lib.namesOf h.params).isEmpty then ""
            else " " ++ ", ".intercalate (lib.namesOf h.params))] ++
        (if (lib.namesOf h.locals).isEmpty then []
          else ["    local " ++ ", ".intercalate (lib.namesOf h.locals)]) ++
        (h.code.toList.flatMap fun i =>
          Listing.labelLines h.targets i.offset ++ [Listing.instructionLine lib s i]) ++
        Listing.labelLines h.targets h.byteLength ++ ["  end"] :=
  rfl

namespace Assembly

/-! ## Labels of open handlers -/

/-- Not in a handler. -/
def Outside (a : Assembly) : Prop :=
  ∀ s o, a.block ≠ .handler s o

theorem outside_top {a : Assembly} (block : a.block = .top) : Outside a := by
  intro s o same
  rw [block] at same
  cases same

theorem outside_script {a : Assembly} {s : OpenScript} (block : a.block = .script s) :
    Outside a := by
  intro s o same
  rw [block] at same
  cases same

/-- The labels of an open handler, with their places in its body, and those that its operands
name. -/
structure Marked (labels operands : List String) (o : OpenHandler) : Prop where
  labels : o.labels.map Prod.fst = labels
  within : ∀ label ∈ o.labels, label.2 ≤ o.body.size
  operands : o.body.toList.filterMap Pending.label? = operands

/-- In a handler with labels and operands. -/
def Inside (labels operands : List String) (a : Assembly) : Prop :=
  ∃ s o, a.block = .handler s o ∧ Marked labels operands o

/-- One more instruction. -/
theorem Marked.push {labels operands : List String} {o : OpenHandler}
    (h : Marked labels operands o) (p : Pending) :
    Marked labels (operands ++ p.label?.toList) { o with body := o.body.push p } where
  labels := h.labels
  within := fun label hl => (h.within label hl).trans (by simp)
  operands := by
    rw [Array.toList_push, List.filterMap_append, h.operands]
    cases hp : p.label? <;> simp [hp]

/-- One more label. -/
theorem Marked.mark {labels operands : List String} {o : OpenHandler}
    (h : Marked labels operands o) (name : String) :
    Marked (labels ++ [name]) operands { o with labels := o.labels ++ [(name, o.body.size)] } where
  labels := by rw [List.map_append, h.labels]; rfl
  within := by
    intro label hl
    rcases List.mem_append.mp hl with old | new
    · exact h.within label old
    · exact Nat.le_of_eq (congrArg Prod.snd (List.mem_singleton.mp new))
  operands := h.operands

theorem Marked.lookup_eq_none_iff {labels operands : List String} {o : OpenHandler}
    (h : Marked labels operands o) {name : String} :
    o.labels.lookup name = none ↔ name ∉ labels := by
  rw [← h.labels, List.lookup_eq_none_iff]
  simp only [List.mem_map, not_exists, not_and, bne_iff_ne, Prod.forall, ne_comm (a := name)]

/-- A line with a mnemonic adds an instruction, whose operand is a label if one is written. -/
theorem stated_operation {line : Nat} {a a' : Assembly} {op : Opcode} (valid : op ≠ .invalid)
    {args : List Token} (h : Stated line a (.word op.mnemonic :: args) a') :
    ∃ s s' o p, a.block = .handler s o ∧ a'.block = .handler s' { o with body := o.body.push p } ∧
      ∀ name, p.label? = some name ↔ args = [.label name] := by
  have other {word : String} (same : Text.asciiLower op.mnemonic = word)
      (directive : word ∈ directives) : False := mnemonic_not_directive valid (same ▸ directive)
  cases h with
  | library directive => exact (other directive (by decide)).elim
  | script directive => exact (other directive (by decide)).elim
  | property directive =>
    rcases directive with directive | directive <;> exact (other directive (by decide)).elim
  | handler directive => exact (other directive (by decide)).elim
  | locals directive =>
    rcases directive with directive | directive <;> exact (other directive (by decide)).elim
  | endHandler directive => exact (other directive (by decide)).elim
  | endScript directive => exact (other directive (by decide)).elim
  | instruction block _ _ ho =>
    refine ⟨_, _, _, _, block, rfl, fun name => ?_⟩
    rw [Pending.label?_eq_some_iff, (operand_keep ho).2.2, List.cons.injEq, and_iff_left rfl]
  | plain block => exact ⟨_, _, _, _, block, rfl, by simp [Pending.label?]⟩

section

variable {blame : AsmFault → Prop} {P Q : Assembly → Prop} {T : List Token → Prop}
  {text word : String} {labels operands : List String}

theorem runs_line (oneLine : OneLine text.toList)
    (step : ∀ line a, P a → (∃ a', a.feed line text.toList = .ok a' ∧ Q a') ∨
      ∃ e, a.feed line text.toList = .error e ∧ blame e.fault) :
    Runs blame P [text] Q where
  line := fun other h => List.mem_singleton.mp h ▸ oneLine
  outcome := by
    intro line a ha
    rw [List.map_singleton, feedAll]
    rcases step line a ha with ⟨a', accepted, h⟩ | ⟨e, refused, h⟩
    · rw [accepted]
      exact .inl ⟨a', rfl, h⟩
    · rw [refused]
      exact .inr ⟨e, rfl, h⟩

variable (mild : ∀ fault : AsmFault, fault.label? = none → blame fault)
include mild

theorem runs_heads (heads : Heads text word T)
    (ok : ∀ line a args a', P a → T args → a.statement line (.word word) args = .ok a' → Q a')
    (error : ∀ line a args e, P a → T args → a.statement line (.word word) args = .error e →
      blame e.fault) : Runs blame P [text] Q := by
  refine runs_line heads.line fun line a ha => ?_
  obtain ⟨args, read, hargs⟩ | ⟨fault, refused, label⟩ := heads.read
  · rw [feed, read]
    dsimp only
    cases result : a.statement line (.word word) args with
    | ok a' => exact .inl ⟨a', rfl, ok line a args a' ha hargs result⟩
    | error e => exact .inr ⟨e, rfl, error line a args e ha hargs result⟩
  · rw [feed, refused]
    exact .inr ⟨⟨line, fault⟩, rfl, mild fault label⟩

/-- Directives outside of handlers, but the one that opens a handler. -/
theorem runs_outside (heads : Heads text word T) (closed : Text.asciiLower word ≠ "handler") :
    Runs blame Outside [text] Outside := by
  refine runs_heads mild heads (fun line a args a' ha _ ok => ?_)
    fun line a args e ha _ failed => ?_
  · cases statement_ok ok with
    | library _ block => exact fun s o same => ha s o same
    | script => exact outside_script rfl
    | property => exact outside_script rfl
    | handler directive => exact absurd directive closed
    | locals _ block => exact absurd block (ha _ _)
    | endHandler _ block => exact absurd block (ha _ _)
    | endScript => exact outside_top rfl
    | instruction block => exact absurd block (ha _ _)
    | plain block => exact absurd block (ha _ _)
  · exact mild _ (statement_mild (fun _ _ _ => ha) e failed)

theorem runs_handler (heads : Heads text "handler" T) :
    Runs blame Outside [text] (Inside [] []) := by
  have noMnemonic : Opcode.ofMnemonic? "handler" = none := ofMnemonic?_directive (by decide)
  refine runs_heads mild heads (fun line a args a' ha _ ok => ?_)
    fun line a args e ha _ failed => ?_
  · cases statement_ok ok with
    | handler => exact ⟨_, _, rfl, rfl, nofun, rfl⟩
    | instruction _ hop => rw [noMnemonic] at hop; cases hop
    | plain _ hop => rw [noMnemonic] at hop; cases hop
    | property directive => exact absurd directive (by decide)
    | locals directive => exact absurd directive (by decide)
    | library directive => exact absurd directive (by decide)
    | script directive => exact absurd directive (by decide)
    | endHandler directive => exact absurd directive (by decide)
    | endScript directive => exact absurd directive (by decide)
  · exact mild _ (statement_mild (fun _ _ _ => ha) e failed)

/-- A statement in a handler that does not end it. -/
theorem runs_inside {P Q : OpenHandler → Prop} (heads : Heads text word T)
    (opened : Text.asciiLower word ≠ "end")
    (step : ∀ line (a : Assembly) args a' s o, T args → a.block = .handler s o → P o →
      Stated line a (.word word :: args) a' → ∃ s' o', a'.block = .handler s' o' ∧ Q o') :
    Runs blame (fun a => ∃ s o, a.block = .handler s o ∧ P o) [text]
      (fun a => ∃ s o, a.block = .handler s o ∧ Q o) := by
  refine runs_heads mild heads (fun line a args a' ⟨s, o, block, h⟩ hargs ok => ?_)
    fun line a args e _ _ failed => ?_
  · exact step line a args a' s o hargs block h (statement_ok ok)
  · refine mild _ (statement_mild (fun word' same ends => ?_) e failed)
    cases same
    exact absurd ends opened

theorem runs_locals (heads : Heads text "local" T) :
    Runs blame (Inside labels operands) [text] (Inside labels operands) := by
  have noMnemonic : Opcode.ofMnemonic? "local" = none := ofMnemonic?_directive (by decide)
  refine runs_inside mild heads (by decide) fun line a args a' s o _ block h stated => ?_
  cases stated with
  | locals _ block' =>
    rw [block] at block'
    cases block'
    exact ⟨_, _, rfl, h.labels, h.within, h.operands⟩
  | instruction _ hop => rw [noMnemonic] at hop; cases hop
  | plain _ hop => rw [noMnemonic] at hop; cases hop
  | library directive => exact absurd directive (by decide)
  | script directive => exact absurd directive (by decide)
  | property directive => exact absurd directive (by decide)
  | handler directive => exact absurd directive (by decide)
  | endHandler directive => exact absurd directive (by decide)
  | endScript directive => exact absurd directive (by decide)

theorem runs_operation {op : Opcode} (valid : op ≠ .invalid) {name? : Option String}
    (heads : Heads text op.mnemonic T)
    (named : ∀ args, T args → ∀ name, name? = some name ↔ args = [.label name]) :
    Runs blame (Inside labels operands) [text] (Inside labels (operands ++ name?.toList)) := by
  have opened : Text.asciiLower op.mnemonic ≠ "end" := fun same =>
    mnemonic_not_directive valid (same ▸ by decide)
  refine runs_inside mild heads opened fun line a args a' s o hargs block h stated => ?_
  obtain ⟨s₁, s', o₁, p, block₁, block', label⟩ := stated_operation valid stated
  rw [block] at block₁
  cases block₁
  have same : p.label? = name? :=
    Option.ext fun name => (label name).trans (named args hargs name).symm
  exact ⟨s', _, block', same ▸ h.push p⟩

omit mild

/-- A label that is new. -/
theorem runs_label {offset : Nat} (new : offsetLabel offset ∉ labels) :
    Runs blame (Inside labels operands) [s!"    @L{offset}:"]
      (Inside (labels ++ [offsetLabel offset]) operands) := by
  have printed := Token.prints_label offset
  refine runs_line printed.line fun line a ⟨s, o, block, h⟩ => ?_
  have defined : a.feed line (s!"    @L{offset}:").toList = .ok { a with
      block := .handler s
        { o with labels := o.labels ++ [(offsetLabel offset, o.body.size)] } } := by
    rw [feed, printed.tokens]
    simp only [defineLabel, block, h.lookup_eq_none_iff.mpr new, Option.isSome_none,
      Bool.false_eq_true, if_false]
    rfl
  exact .inl ⟨_, defined, s, _, rfl, h.mark _⟩

/-- The label of an offset, behind those of others. -/
theorem runs_labelLines {targets offsets : List Int} {offset : Nat}
    (new : (offset : Int) ∉ offsets) :
    Runs blame (Inside (Listing.marks targets offsets) operands)
      (Listing.labelLines targets offset)
      (Inside (Listing.marks targets (offsets ++ [(offset : Int)])) operands) := by
  have fresh : offsetLabel offset ∉ Listing.marks targets offsets := fun old =>
    new (Listing.mem_marks.mp old).2
  rw [Listing.marks_append]
  unfold Listing.labelLines
  split
  · rename_i leads
    have mark : Listing.marks targets [(offset : Int)] = [offsetLabel offset] := by
      rw [Listing.marks, List.filter_cons_of_pos leads]
      rfl
    rw [mark]
    exact runs_label fresh
  · rename_i silent
    have mark : Listing.marks targets [(offset : Int)] = [] := by
      rw [Listing.marks, List.filter_cons_of_neg silent]
      rfl
    rw [mark, List.append_nil]
    exact .nil blame _

/-- The end of a handler, which is laid out. It is refused only for an operand that names no
label of the handler. -/
theorem runs_endHandler (blamed : ∀ name ∈ operands, name ∉ labels → blame (.undefinedLabel name)) :
    Runs blame (Inside labels operands) ["  end"]
      fun a => Outside a ∧ ∀ name ∈ operands, name ∈ labels := by
  have printed := Token.prints_end 2 "  end" rfl
  refine runs_line printed.line fun line a inside => ?_
  obtain ⟨s, o, block, h⟩ := inside
  have directive : a.feed line "  end".toList = a.endDirective line [] := by
    rw [feed, printed.tokens]
    rfl
  have operand {p : Pending} {name : String} (hp : p ∈ o.body.toList)
      (same : p.operand = .label name) : name ∈ operands := by
    rw [← h.operands]
    exact List.mem_filterMap.mpr ⟨p, hp, Pending.label?_eq_some_iff.mpr same⟩
  rw [directive, endDirective, block]
  dsimp only
  rw [buildHandler]
  cases laid : layout o.body.toList o.labels with
  | ok code =>
    refine .inl ⟨_, rfl, outside_script rfl, fun name hname => ?_⟩
    rw [← h.operands] at hname
    obtain ⟨p, hp, same⟩ := List.mem_filterMap.mp hname
    have found := resolves_of_layout laid p hp name (Pending.label?_eq_some_iff.mp same)
    by_contra missing
    rw [h.lookup_eq_none_iff.mpr missing] at found
    cases found
  | error e =>
    have bounded (name : String) (target : Nat) (found : o.labels.lookup name = some target) :
        target ≤ o.body.toList.length :=
      h.within (name, target) (Bindings.mem_of_lookup found)
    obtain ⟨p, hp, missing⟩ := List.exists_of_findSome?_eq_some ((layout_error_iff bounded).mp laid)
    obtain ⟨name, same, none, rfl⟩ := missing?_eq_some_iff.mp missing
    exact .inr ⟨_, rfl, blamed name (operand hp same) (h.lookup_eq_none_iff.mp none)⟩

end

/-! ## Listings that are read -/

section

variable {lib : Library} {s : Script} {i : Instruction} {h : Handler} {blame : AsmFault → Prop}
  {labels operands : List String} (whole : lib.names.Whole)
  (mild : ∀ fault : AsmFault, fault.label? = none → blame fault)
include whole mild

theorem runs_instructionLine (valid : i.opcode ≠ .invalid) :
    Runs blame (Inside labels operands) [Listing.instructionLine lib s i]
      (Inside labels (operands ++ (i.jumpTarget?.map (offsetLabel ·)).toList)) := by
  cases jump : i.jumpTarget? with
  | some target =>
    have line : Prints (Listing.instructionLine lib s i) _ := Listing.prints_jump jump
    refine runs_operation mild valid (line.heads (P := (· = [.label (offsetLabel target)])) rfl) ?_
    rintro args rfl name
    simp
  | none =>
    have line : Heads (Listing.instructionLine lib s i) _ _ :=
      Listing.heads_operation whole valid jump
    refine runs_operation mild valid line fun args noLabel name => ?_
    simp only [Option.map_none, reduceCtorEq, false_iff]
    rintro rfl
    exact noLabel name (List.mem_singleton.mpr rfl)

/-- The instructions of a handler, with the labels before them. -/
theorem runs_code (assembled : h.Assembled) :
    Runs blame (Inside [] [])
      (h.code.toList.flatMap fun i =>
        Listing.labelLines h.targets i.offset ++ [Listing.instructionLine lib s i])
      (Inside (Listing.marks h.targets (h.code.toList.map fun i => (i.offset : Int)))
        (h.targets.map (offsetLabel ·))) := by
  have lines : Runs blame _ _ _ := Runs.each
    (fun k => Inside
      (Listing.marks h.targets ((h.code.toList.take k).map fun i => (i.offset : Int)))
      (((h.code.toList.take k).filterMap Instruction.jumpTarget?).map (offsetLabel ·)))
    (fun i => Listing.labelLines h.targets i.offset ++ [Listing.instructionLine lib s i])
    h.code.toList fun k hk => ?_
  · rw [List.take_length] at lines
    exact lines
  · have valid : h.code.toList[k].opcode ≠ .invalid :=
      assembled.valid _ (Array.mem_toList_iff.mp (List.getElem_mem hk))
    have offsets : (h.code.toList.map fun i => (i.offset : Int)).Nodup :=
      assembled.boundaries.of_append_left
    have new : (h.code.toList[k].offset : Int) ∉
        (h.code.toList.take k).map fun i => (i.offset : Int) := by
      have first := offsets.sublist ((List.take_sublist (k + 1) h.code.toList).map _)
      rw [List.take_succ_eq_append_getElem hk, List.map_append] at first
      exact fun old => List.disjoint_of_nodup_append first old (List.mem_singleton.mpr rfl)
    have used : [h.code.toList[k]].filterMap Instruction.jumpTarget? =
        h.code.toList[k].jumpTarget?.toList := by
      rw [List.filterMap_cons]
      cases h.code.toList[k].jumpTarget? <;> rfl
    rw [List.take_succ_eq_append_getElem hk, List.map_append, List.filterMap_append, used,
      List.map_append, ← Option.toList_map]
    exact (runs_labelLines new).append (runs_instructionLine whole mild valid)

/-- The lines of a handler lead out of it again, unless one of its jumps leads to no
boundary. -/
theorem runs_handlerLines (assembled : h.Assembled)
    (blamed : ∀ n ∈ h.targets, n ∉ h.boundaries → blame (.undefinedLabel (offsetLabel n))) :
    Runs blame Outside (Listing.handlerLines lib s h) fun a => Outside a ∧ h.Closed := by
  have locals : Runs blame (Inside [] [])
      (if (lib.namesOf h.locals).isEmpty then []
        else ["    local " ++ ", ".intercalate (lib.namesOf h.locals)]) (Inside [] []) := by
    split
    · exact .nil blame _
    · exact runs_locals mild (Token.heads_local whole h.locals)
  have ended : (h.byteLength : Int) ∉ h.code.toList.map fun i => (i.offset : Int) := fun inside =>
    List.disjoint_of_nodup_append assembled.boundaries inside (List.mem_singleton.mpr rfl)
  have leads {n : Int} : offsetLabel n ∈ Listing.marks h.targets h.boundaries ↔
      n ∈ h.targets ∧ n ∈ h.boundaries := Listing.mem_marks
  have close : Runs blame
      (Inside (Listing.marks h.targets h.boundaries) (h.targets.map (offsetLabel ·))) ["  end"] _ :=
    runs_endHandler fun name used missing => by
      obtain ⟨n, target, rfl⟩ := List.mem_map.mp used
      exact blamed n target fun boundary => missing (leads.mpr ⟨target, boundary⟩)
  have header := runs_handler mild (Token.heads_handler whole h)
  have start := (header.append locals).append (runs_code (s := s) whole mild assembled)
  have lines := (start.append (runs_labelLines ended)).append close
  rw [Listing.handlerLines_eq]
  refine lines.imp fun a ⟨outside, defined⟩ => ⟨outside, fun n target => ?_⟩
  exact (leads.mp (defined _ (List.mem_map_of_mem target))).2

end

section

variable {lib : Library} {blame : AsmFault → Prop} (whole : lib.names.Whole)
  (mild : ∀ fault : AsmFault, fault.label? = none → blame fault)
include whole mild

/-- The lines of a script lead to its end, unless one of its jumps leads to no boundary. -/
theorem runs_scriptLines {s : Script} (assembled : ∀ h ∈ s.handlers, h.Assembled)
    (blamed : ∀ h ∈ s.handlers, ∀ n ∈ h.targets, n ∉ h.boundaries →
      blame (.undefinedLabel (offsetLabel n))) :
    Runs blame Outside (Listing.scriptLines lib s) fun a =>
      Outside a ∧ ∀ h ∈ s.handlers.toList, h.Closed := by
  have header := runs_outside mild (Token.heads_script s) (by decide)
  have properties : Runs blame Outside
      (if (lib.propertyNames s).isEmpty then []
        else ["  property " ++ ", ".intercalate (lib.propertyNames s)]) Outside := by
    split
    · exact .nil blame _
    · exact runs_outside mild (Token.heads_property whole s) (by decide)
  have handlers : Runs blame Outside (s.handlers.toList.flatMap (Listing.handlerLines lib s))
      fun a => Outside a ∧ ∀ h ∈ s.handlers.toList, h.Closed := by
    refine Runs.all fun h hh => ?_
    have mem : h ∈ s.handlers := Array.mem_toList_iff.mp hh
    exact runs_handlerLines whole mild (assembled h mem) (blamed h mem)
  have ended : Heads "end" "end" fun _ => True := (Token.prints_end 0 "end" rfl).heads trivial
  have close := (runs_outside mild ended (by decide)).frame (∀ h ∈ s.handlers.toList, h.Closed)
  exact ((header.append properties).append handlers).append close

/-- The lines of a library are read to their end, unless a jump leads to no boundary. -/
theorem runs_libraryLines (assembled : ∀ s ∈ lib.scripts, ∀ h ∈ s.handlers, h.Assembled)
    (blamed : ∀ s ∈ lib.scripts, ∀ h ∈ s.handlers, ∀ n ∈ h.targets, n ∉ h.boundaries →
      blame (.undefinedLabel (offsetLabel n))) :
    Runs blame Outside (Listing.libraryLines lib) fun a =>
      Outside a ∧ ∀ s ∈ lib.scripts.toList, ∀ h ∈ s.handlers.toList, h.Closed := by
  have header := runs_outside mild (Token.heads_library lib) (by decide)
  refine header.append (Runs.all fun s hs => ?_)
  have mem : s ∈ lib.scripts := Array.mem_toList_iff.mp hs
  exact runs_scriptLines whole mild (assembled s mem) (blamed s mem)

end

end Assembly

/-- A jump of a library leads to no boundary, and the fault is about the label of the offset that
it leads to. -/
def Library.Misses (lib : Library) (fault : AsmFault) : Prop :=
  ∃ s ∈ lib.scripts, ∃ h ∈ s.handlers, ∃ n ∈ h.targets, n ∉ h.boundaries ∧
    fault = .undefinedLabel (offsetLabel n)

/-- Assembling a listing again fails for a label only if a jump leads to no boundary, and then
for the label of the offset that it leads to. -/
theorem assemble_listing_labels {text : String} {lib : Library}
    (accepted : assemble text = .ok lib) :
    (∀ again, assemble (listing lib) = .ok again →
      ∀ s ∈ lib.scripts, ∀ h ∈ s.handlers, h.Closed) ∧
    ∀ e name, assemble (listing lib) = .error e → e.fault.label? = some name →
      lib.Misses e.fault := by
  have run : Runs (fun fault => ∀ name, fault.label? = some name → lib.Misses fault) Outside
      (Listing.libraryLines lib) _ :=
    runs_libraryLines (names_whole accepted)
      (fun fault none name same => by rw [none] at same; cases same)
      (fun s hs h hh => assembled_of_assemble accepted hs hh)
      fun s hs h hh n target stray name _ => ⟨s, hs, h, hh, n, target, stray, rfl⟩
  rw [assemble, listing, textLines_join run.line]
  rcases run.outcome 1 {} (outside_top rfl) with ⟨a, read, -, closed⟩ | ⟨e, failed, blamed⟩
  · rw [read]
    refine ⟨fun _ _ s hs h hh => ?_, fun e name error label => ?_⟩
    · exact closed s (Array.mem_toList_iff.mpr hs) h (Array.mem_toList_iff.mpr hh)
    · rw [finish_mild a e error] at label
      cases label
  · rw [failed]
    constructor
    · intro again accepted
      cases accepted
    · rintro e' name ⟨⟩
      exact blamed name

end Lingo
