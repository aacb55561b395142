import Lingo.Proofs.Feeding

/-!
# Assembling a listing

A library that can be listed is assembled again from its listing
(`assemble_listing`). The lines are followed one by one: before each, the
assembler has the part of the library that the lines before it have printed
(`AtTop`, `InScript`, `InHandler`). The tables of names and literals are cut off
where the next new entry is to be mentioned, which is said by what is still to be
mentioned being in order of first use.
-/

namespace Lingo

open Number Layout Assembly
open Token (Prints Word offsetLabel)

/-- The first names and scripts of a library. -/
def Library.part (lib : Library) (names scripts : Nat) : Library :=
  { lib with
    names := lib.names.upTo names
    scripts := (lib.scripts.toList.take scripts).toArray }

/-- The first literals and handlers of a script, with properties that have been
declared. -/
def Script.part (s : Script) (properties : List Int32) (literals handlers : Nat) : Script :=
  { s with
    properties
    literals := (s.literals.toList.take literals).toArray
    handlers := (s.handlers.toList.take handlers).toArray }

/-- The offsets that the jumps of a handler lead to. -/
def Handler.targets (h : Handler) : List Int :=
  h.code.toList.filterMap Instruction.jumpTarget?

namespace Relisting

/-! ## States between lines -/

/-- Before a script. -/
def AtTop (lib : Library) (i : Nat) (a : Assembly) : Prop :=
  ∃ k, FirstUse k ((lib.scripts.toList.drop i).flatMap Script.nameIds) lib.names.list.length ∧
    a = { library := lib.part k i }

/-- In a script, with properties that have been declared, before a handler; names
and literals are still to be mentioned. -/
def InScript (lib : Library) (i : Nat) (s : Script) (properties : List Int32) (j : Nat)
    (names literals : List Int32) (a : Assembly) : Prop :=
  ∃ k l line, FirstUse k names lib.names.list.length ∧ FirstUse l literals s.literals.size ∧
    a = { library := lib.part k i, block := .script ⟨line, s.part properties l j⟩ }

/-- What has been read of a handler: some of its locals, and its body up to an
instruction and up to a label. -/
structure Gathered (lib : Library) (h : Handler) (items : List Item) (locals : List Int32)
    (size marked : Nat) (o : OpenHandler) : Prop where
  nameId : o.nameId = h.nameId
  params : o.params = lib.namesOf h.params
  locals : o.locals = lib.namesOf locals
  body : o.body.toList.map (fun p => (p.opcode, p.operand)) =
    (items.take size).map (spelling (settledSizes items))
  labels : o.labels = markers (settledSizes items) h.targets marked

/-- Numbers of the first names. -/
def Known (k : Nat) (ids : List Int32) : Prop :=
  ∀ id ∈ ids, ∃ n < k, id = Int32.ofNat n

/-- In a handler. -/
def InHandler (lib : Library) (i : Nat) (s : Script) (j : Nat) (h : Handler) (items : List Item)
    (locals : List Int32) (size marked : Nat) (names literals : List Int32) (a : Assembly) : Prop :=
  ∃ k l line o, FirstUse k names lib.names.list.length ∧ FirstUse l literals s.literals.size ∧
    Known k (h.params ++ locals) ∧ Gathered lib h items locals size marked o ∧
    a = { library := lib.part k i, block := .handler ⟨line, s.part s.properties l j⟩ o }

theorem Known.mono {k k' : Nat} {ids : List Int32} (h : Known k ids) (le : k ≤ k') :
    Known k' ids := by
  intro id hid
  obtain ⟨n, hn, eq⟩ := h id hid
  exact ⟨n, Nat.lt_of_lt_of_le hn le, eq⟩

theorem Known.append {k : Nat} {ids ids' : List Int32} (h : Known k ids) (h' : Known k ids') :
    Known k (ids ++ ids') := by
  intro id hid
  rcases List.mem_append.mp hid with hid | hid
  · exact h id hid
  · exact h' id hid

theorem known_of_firstUse {k k' : Nat} {ids : List Int32} (h : FirstUse k ids k') : Known k' ids :=
  fun _ hid => h.lt hid

section

variable {lib : Library}

/-! ## Names -/

theorem word_of_declared (bounded : lib.Bounded) {id : Int32} (declared : lib.names.Declared id) :
    Word (lib.names.name id).toList := by
  obtain ⟨i, w, rfl, hw, word⟩ := declared
  obtain ⟨inside, rfl⟩ := List.getElem?_eq_some_iff.mp hw
  rwa [Names.name_ofNat bounded.names inside]

theorem words_of_declared (bounded : lib.Bounded) {ids : List Int32}
    (declared : ∀ id ∈ ids, lib.names.Declared id) :
    ∀ name ∈ lib.namesOf ids, Word name.toList := by
  intro name hname
  obtain ⟨id, hid, rfl⟩ := List.mem_map.mp hname
  exact word_of_declared bounded (declared id hid)

variable (listable : lib.Listable) (bounded : lib.Bounded)
include listable bounded

/-- The names of a finished table are found again among those known. -/
theorem filterMap_find? {k : Nat} (inside : k ≤ lib.names.list.length) {ids : List Int32}
    (known : Known k ids) : (lib.namesOf ids).filterMap (lib.names.upTo k).find? = ids := by
  induction ids with
  | nil => rfl
  | cons id ids ih =>
    have here := Names.find?_upTo bounded.names listable.distinct inside
      (known id List.mem_cons_self)
    have rest := ih fun other h => known other (List.mem_cons_of_mem id h)
    rw [Library.namesOf, List.map_cons, List.filterMap_cons_some here]
    exact congrArg (id :: ·) rest

/-! ## Directives -/

omit bounded in
theorem feeds_library :
    Feeds (fun a => a = {})
      [s!"library {lib.number.toInt} " ++ Text.quote lib.name ++ s!" version={lib.version}" ++
        (if lib.capitalX then " capitalx" else "")] (AtTop lib 0) := by
  refine feeds_statement (Token.prints_library listable.name) fun line a ha => ?_
  subst ha
  refine ⟨{ library := lib.part 0 0 }, ?_, 0, listable.uses, rfl⟩
  have version := readBounded_toString lib.version.toNat_lt
  have settings : ∀ library : Library, library.capitalX = false →
      (Token.string lib.name :: .setting "version" (toString lib.version.toNat) ::
        if lib.capitalX then [.word "capitalx"] else []).foldlM (librarySetting line) library =
        .ok { library with name := lib.name, version := lib.version, capitalX := lib.capitalX } := by
    intro library plain
    have named : Text.sameName "version" "version" = true := Text.sameName_refl _
    have flagged : Text.sameName "capitalx" "capitalx" = true := Text.sameName_refl _
    cases hc : lib.capitalX with
    | false =>
      simp only [Bool.false_eq_true, if_false, List.foldlM, librarySetting, named, if_true, version]
      simp [bind, Except.bind, pure, Except.pure, plain]
    | true =>
      simp only [if_true, List.foldlM, librarySetting, named, flagged, version]
      simp [bind, Except.bind, pure, Except.pure]
  have directive : libraryDirective {} line (.int lib.number.toInt :: .string lib.name ::
      .setting "version" (toString lib.version.toNat) ::
        if lib.capitalX then [.word "capitalx"] else []) = .ok { library := lib.part 0 0 } := by
    unfold libraryDirective
    rw [if_neg (by decide)]
    refine bind_eq_ok.mpr ⟨lib.number, intOperand_toInt line lib.number, ?_⟩
    refine bind_eq_ok.mpr ⟨_, settings { number := lib.number } rfl, ?_⟩
    simp [Library.part, Names.upTo, pure, Except.pure]
  exact directive

omit listable bounded in
theorem ofName?_name {kind : ScriptKind} (known : kind ≠ .unknown) :
    ScriptKind.ofName? kind.name = some kind := by
  cases kind <;> first | rfl | exact absurd rfl known

omit bounded in
/-- The scripts before a script are other members. -/
theorem scriptAt?_part (k : Nat) {i : Nat} (hi : i < lib.scripts.size) :
    (lib.part k i).scriptAt? lib.scripts[i].member = none := by
  refine Array.find?_eq_none.mpr fun other hother same => ?_
  have before : other ∈ lib.scripts.toList.take i := List.mem_toArray.mp hother
  have split : lib.scripts.toList = lib.scripts.toList.take i ++
      lib.scripts[i] :: lib.scripts.toList.drop (i + 1) := by
    have rest := List.drop_eq_getElem_cons (l := lib.scripts.toList) hi
    exact (List.take_append_drop i _).symm.trans (congrArg _ rest)
  have members := listable.members
  rw [split, List.map_append, List.nodup_append] at members
  exact members.2.2 _ (List.mem_map_of_mem before) _
    (List.mem_map_of_mem List.mem_cons_self) (beq_iff_eq.mp same)

omit bounded in
theorem feeds_script {i : Nat} {s : Script} (hs : lib.scripts[i]? = some s) :
    Feeds (AtTop lib i)
      [s!"script {s.member.toInt} {s.kind.name}" ++
        (if s.name.isEmpty then "" else " " ++ Text.quote s.name)]
      (InScript lib i s [] 0
        (s.nameIds ++ (lib.scripts.toList.drop (i + 1)).flatMap Script.nameIds) s.literalIds) := by
  have script := listable.scripts s (Array.mem_of_getElem? hs)
  refine feeds_statement (Token.prints_script script.name) fun line a ha => ?_
  obtain ⟨k, uses, rfl⟩ := ha
  obtain ⟨hi, rfl⟩ := Array.getElem?_eq_some_iff.mp hs
  have rest : lib.scripts.toList.drop i = lib.scripts[i] :: lib.scripts.toList.drop (i + 1) :=
    List.drop_eq_getElem_cons (l := lib.scripts.toList) hi
  rw [rest, List.flatMap_cons] at uses
  have literals := script.uses
  rw [List.append_nil] at literals
  refine ⟨_, ?_, k, 0, line, uses, literals, rfl⟩
  have named := ofName?_name script.kind
  have new := scriptAt?_part listable k hi
  have directive : scriptDirective { library := lib.part k i } line
      (.int lib.scripts[i].member.toInt :: .word lib.scripts[i].kind.name ::
        if lib.scripts[i].name.isEmpty then [] else [.string lib.scripts[i].name]) =
      .ok { library := lib.part k i, block := .script ⟨line, lib.scripts[i].part [] 0 0⟩ } := by
    unfold scriptDirective
    rw [if_neg (by simp)]
    refine bind_eq_ok.mpr ⟨lib.scripts[i].member, intOperand_toInt line _, ?_⟩
    dsimp only
    rw [named]
    refine bind_eq_ok.mpr ⟨_, rfl, ?_⟩
    rw [new, if_neg (by decide)]
    cases empty : lib.scripts[i].name.isEmpty with
    | true =>
      have name : lib.scripts[i].name = "" := String.isEmpty_iff.mp empty
      rw [if_pos rfl, Script.part, name]
      rfl
    | false =>
      rw [if_neg Bool.false_ne_true]
      rfl
  exact directive

/-- The line of properties, if there are any. -/
theorem feeds_properties {i : Nat} {s : Script} (hs : s ∈ lib.scripts) (names literals : List Int32) :
    Feeds (InScript lib i s [] 0 (s.properties ++ names) literals)
      (if (lib.propertyNames s).isEmpty then []
        else ["  property " ++ ", ".intercalate (lib.propertyNames s)])
      (InScript lib i s s.properties 0 names literals) := by
  have declared := (listable.scripts s hs).properties
  by_cases none : s.properties = []
  · rw [Library.propertyNames, Library.namesOf, none]
    exact .nil _
  · rw [if_neg (by simpa [Library.propertyNames, Library.namesOf] using none)]
    refine feeds_statement (Token.prints_property (words_of_declared bounded declared))
      fun line a ha => ?_
    obtain ⟨k, l, opened, uses, literal, rfl⟩ := ha
    obtain ⟨k', first, rest⟩ := firstUse_append.mp uses
    refine ⟨_, ?_, k', l, opened, rest, literal, rfl⟩
    have interned := Names.internAll_upTo bounded.names listable.distinct first rest.le
    have directive : propertyDirective
        { library := lib.part k i, block := .script ⟨opened, s.part [] l 0⟩ } line
        ((lib.propertyNames s).map .word) =
        .ok { library := lib.part k' i, block := .script ⟨opened, s.part s.properties l 0⟩ } := by
      refine bind_eq_ok.mpr ⟨_, declaredNames_words line _, ?_⟩
      have table : (lib.part k i).names.internAll (lib.propertyNames s) =
        (s.properties, lib.names.upTo k') := interned
      rw [table]
      rfl
    exact directive

omit listable bounded in
theorem feeds_endScript {i : Nat} {s : Script} (hs : lib.scripts[i]? = some s) :
    Feeds (InScript lib i s s.properties s.handlers.size
        ((lib.scripts.toList.drop (i + 1)).flatMap Script.nameIds) [])
      ["end"] (AtTop lib (i + 1)) := by
  refine feeds_statement (Token.prints_end 0 "end" rfl) fun line a ha => ?_
  obtain ⟨k, l, opened, uses, literal, rfl⟩ := ha
  obtain ⟨hi, rfl⟩ := Array.getElem?_eq_some_iff.mp hs
  have whole : lib.scripts[i].part lib.scripts[i].properties l lib.scripts[i].handlers.size =
      lib.scripts[i] := by
    rw [show l = lib.scripts[i].literals.toList.length from literal.symm, Script.part,
      List.take_length, ← Array.length_toList, List.take_length]
  have next : lib.scripts.toList.take i ++ [lib.scripts[i]] = lib.scripts.toList.take (i + 1) :=
    (List.take_succ_eq_append_getElem (l := lib.scripts.toList) hi).symm
  refine ⟨_, rfl, k, uses, ?_⟩
  rw [whole, Library.part, Library.part, List.push_toArray, next]

/-! ## Handlers -/

/-- The line of a handler, with its parameters. -/
theorem feeds_handler {i j : Nat} {s : Script} {h : Handler}
    (hs : s ∈ lib.scripts) (hh : s.handlers[j]? = some h) (items : List Item)
    (names literals : List Int32) :
    Feeds (InScript lib i s s.properties j (h.nameId :: (h.params ++ names)) literals)
      ["  handler " ++ lib.names.name h.nameId ++
        (if (lib.namesOf h.params).isEmpty then ""
          else " " ++ ", ".intercalate (lib.namesOf h.params))]
      (InHandler lib i s j h items [] 0 0 names literals) := by
  have handler := (listable.scripts s hs).handlers j h hh
  refine feeds_statement (Token.prints_handler (word_of_declared bounded handler.nameId)
    (words_of_declared bounded handler.params)) fun line a ha => ?_
  obtain ⟨k, l, opened, uses, literal, rfl⟩ := ha
  obtain ⟨k', first, rest⟩ := firstUse_append.mp
    (show FirstUse k ((h.nameId :: h.params) ++ names) lib.names.list.length from uses)
  have known : Known k' (h.params ++ []) := by
    rw [List.append_nil]
    exact fun id hid => first.lt (List.mem_cons_of_mem _ hid)
  refine ⟨_, ?_, k', l, opened,
    { line, name := lib.names.name h.nameId, nameId := h.nameId, params := lib.namesOf h.params },
    rest, literal, known, ⟨rfl, rfl, rfl, rfl, rfl⟩, rfl⟩
  have interned := Names.internAll_upTo bounded.names listable.distinct first rest.le
  rw [List.map_cons, Names.internAll] at interned
  obtain ⟨ids, table⟩ := Prod.mk.inj interned
  have directive : handlerDirective
      { library := lib.part k i, block := .script ⟨opened, s.part s.properties l j⟩ } line
      ((lib.names.name h.nameId :: lib.namesOf h.params).map .word) =
      .ok { library := lib.part k' i
            block := .handler ⟨opened, s.part s.properties l j⟩
              { line, name := lib.names.name h.nameId, nameId := h.nameId,
                params := lib.namesOf h.params } } := by
    refine bind_eq_ok.mpr ⟨_, declaredNames_words line _, ?_⟩
    have nameId : ((lib.part k i).names.intern (lib.names.name h.nameId)).1 = h.nameId :=
      (List.cons.inj ids).1
    have params : (((lib.part k i).names.intern (lib.names.name h.nameId)).2.internAll
        (lib.namesOf h.params)).2 = lib.names.upTo k' := table
    dsimp only
    rw [nameId, params]
    rfl
  exact directive

/-- The line of local variables, if there are any. -/
theorem feeds_locals {i j : Nat} {s : Script} {h : Handler}
    (hs : s ∈ lib.scripts) (hh : s.handlers[j]? = some h) (items : List Item)
    (names literals : List Int32) :
    Feeds (InHandler lib i s j h items [] 0 0 (h.locals ++ names) literals)
      (if (lib.namesOf h.locals).isEmpty then []
        else ["    local " ++ ", ".intercalate (lib.namesOf h.locals)])
      (InHandler lib i s j h items h.locals 0 0 names literals) := by
  have handler := (listable.scripts s hs).handlers j h hh
  by_cases none : h.locals = []
  · rw [Library.namesOf, none]
    exact .nil _
  · rw [if_neg (by simpa [Library.namesOf] using none)]
    refine feeds_statement (Token.prints_local (words_of_declared bounded handler.locals))
      fun line a ha => ?_
    obtain ⟨k, l, opened, o, uses, literal, known, gathered, rfl⟩ := ha
    obtain ⟨k', first, rest⟩ := firstUse_append.mp uses
    rw [List.append_nil] at known
    have all : Known k' (h.params ++ h.locals) :=
      (known.mono first.le).append (known_of_firstUse first)
    have empty : o.locals = [] := gathered.locals
    refine ⟨_, ?_, k', l, opened, { o with locals := lib.namesOf h.locals }, rest, literal, all,
      { gathered with locals := rfl }, rfl⟩
    have interned := Names.internAll_upTo bounded.names listable.distinct first rest.le
    have directive : localDirective
        { library := lib.part k i, block := .handler ⟨opened, s.part s.properties l j⟩ o } line
        ((lib.namesOf h.locals).map .word) =
        .ok { library := lib.part k' i
              block := .handler ⟨opened, s.part s.properties l j⟩
                { o with locals := lib.namesOf h.locals } } := by
      refine bind_eq_ok.mpr ⟨_, declaredNames_words line _, ?_⟩
      have table : (lib.part k i).names.internAll (lib.namesOf h.locals) =
        (h.locals, lib.names.upTo k') := interned
      rw [table, empty]
      rfl
    exact directive

end

/-! ## Bodies -/

/-- The instruction of an item. -/
theorem laidOut_item {items : List Item} {p : Nat} {item : Item} (hp : items[p]? = some item) :
    ∃ i, (laidOut items)[p]? = some i ∧ i.offset = start (settledSizes items) p ∧
      i.opcode = item.1 ∧ i.argument = item.2.argument item.1 (settledSizes items) p := by
  obtain ⟨inside, rfl⟩ := List.getElem?_eq_some_iff.mp hp
  have laid : p < (laidOut items).length := by rwa [length_laidOut]
  refine ⟨_, List.getElem?_eq_getElem laid, ?_, ?_, ?_⟩
  all_goals simp [laidOut, placed]

theorem jumpTarget?_eq (i : Instruction) :
    i.jumpTarget? = if i.opcode.isJump then some i.target else none := by
  rcases i with ⟨offset, op, raw, argument⟩
  cases op <;> rfl

/-- Where the instruction of an item jumps to. -/
theorem jumpTarget?_item {items : List Item} {scale : Int32} (writable : Writable items scale)
    (short : (settledSizes items).sum < 2147483648) {p : Nat} {op : Opcode} {r : Resolved}
    (hp : items[p]? = some (op, r)) {i : Instruction} (hi : (laidOut items)[p]? = some i) :
    i.jumpTarget? =
      match r with
      | .index target => some (start (settledSizes items) target : Int)
      | .value _ => none := by
  have allowed := writable _ (List.mem_of_getElem? hp)
  rw [jumpTarget?_eq]
  cases r with
  | value n =>
    obtain ⟨i', hi', -, opcode, -⟩ := laidOut_item hp
    cases hi.symm.trans hi'
    rw [opcode, allowed.2.1]
    rfl
  | index target =>
    obtain ⟨i', hi', opcode, leads⟩ := laidOut_jump short hp
    cases hi.symm.trans hi'
    rw [← opcode] at leads
    rw [opcode, allowed.1, if_pos rfl]
    exact congrArg some leads

section

variable {lib : Library} {s : Script} {h : Handler} {items : List Item} {i j : Nat}
  (locals names literals : List Int32)

/-- The label before an instruction that a jump leads to, or behind the last
one. -/
theorem feeds_labels {p : Nat} (inside : p ≤ items.length) :
    Feeds (InHandler lib i s j h items locals p p names literals)
      (Listing.labelLines h.targets (start (settledSizes items) p))
      (InHandler lib i s j h items locals p (p + 1) names literals) := by
  unfold Listing.labelLines
  split
  · rename_i leads
    refine feeds_labelDef (Token.prints_label _) fun line a ha => ?_
    obtain ⟨k, l, opened, o, uses, literal, known, gathered, rfl⟩ := ha
    have size : o.body.size = p := by
      have lengths := congrArg List.length gathered.body
      rw [List.length_map, List.length_map, List.length_take, Array.length_toList] at lengths
      omega
    have new : o.labels.lookup (offsetLabel (start (settledSizes items) p)) = none := by
      rw [gathered.labels, lookup_markers (start_inj items) (Nat.le_succ_of_le inside) inside,
        if_neg (by omega)]
    refine ⟨_, ?_, k, l, opened,
      { o with labels := o.labels ++ [(offsetLabel (start (settledSizes items) p), p)] },
      uses, literal, known, { gathered with labels := ?_ }, rfl⟩
    · unfold defineLabel
      dsimp only
      rw [new, size]
      rfl
    · dsimp only
      rw [markers, if_pos leads, gathered.labels]
  · rename_i silent
    have same : markers (settledSizes items) h.targets (p + 1) =
        markers (settledSizes items) h.targets p := by
      rw [markers, if_neg silent, List.append_nil]
    refine ⟨fun _ h => absurd h List.not_mem_nil, fun line a ha => ⟨a, rfl, ?_⟩⟩
    obtain ⟨k, l, opened, o, uses, literal, known, gathered, rfl⟩ := ha
    exact ⟨k, l, opened, o, uses, literal, known, { gathered with labels := by rw [same, gathered.labels] }, rfl⟩

/-! ## Instructions -/

/-- What an instruction of a library that can be listed mentions can be read
back. -/
theorem legible (listable : lib.Listable) (bounded : lib.Bounded) (floats : lib.FloatsReadBack)
    (hs : s ∈ lib.scripts) (hh : h ∈ s.handlers) (code : h.code = (laidOut items).toArray)
    (writable : Writable items lib.slotScale) {p : Nat} {op : Opcode} {r : Resolved}
    (hp : items[p]? = some (op, r)) {instr : Instruction}
    (hi : (laidOut items)[p]? = some instr) : Listing.Legible lib s instr where
  name := by
    intro takesName
    have mem : instr.argument ∈ lib.nameIds := by
      refine List.mem_flatMap.mpr ⟨s, Array.mem_toList_iff.mpr hs, List.mem_append_right _ ?_⟩
      refine List.mem_flatMap.mpr ⟨h, Array.mem_toList_iff.mpr hh, List.mem_cons_of_mem _ ?_⟩
      refine List.mem_append_right _ (List.mem_append_right _ ?_)
      rw [code]
      exact List.mem_filterMap.mpr ⟨instr, List.mem_of_getElem? hi, if_pos takesName⟩
    obtain ⟨n, hn, eq⟩ := listable.uses.lt mem
    rw [eq, Names.name_ofNat bounded.names hn]
    exact listable.names _ (List.getElem_mem hn)
  literal := by
    intro x hx
    have mem : x ∈ s.literals := by
      unfold Listing.literalAt? at hx
      split at hx
      · cases hx
      · exact Array.mem_of_getElem? hx
    refine ⟨(listable.scripts s hs).literals x mem, ?_⟩
    rintro y rfl
    exact floats.double s hs y mem
  single := by
    intro pushFloat
    obtain ⟨i', hi', -, opcode, argument⟩ := laidOut_item hp
    cases hi.symm.trans hi'
    have allowed := writable _ (List.mem_of_getElem? hp)
    have mem : instr ∈ h.code := by
      rw [code]
      exact List.mem_toArray.mpr (List.mem_of_getElem? hi)
    refine ⟨?_, floats.single s hs h hh instr mem pushFloat⟩
    rw [pushFloat] at opcode
    cases r with
    | value n =>
      rw [show instr.argument = n from argument]
      exact allowed.2.2.2.2 opcode.symm
    | index target => exact absurd opcode.symm (plain_of_isJump allowed.1).2.2.2

section

variable (o : OpenHandler) (line opened : Nat)

/-- A name that is mentioned is entered again, with the number that it has. -/
theorem operand_mentioned (listable : lib.Listable) (bounded : lib.Bounded) {k : Nat} {id : Int32}
    (uses : FirstUse k (id :: names) lib.names.list.length) (script : OpenScript) (op : Opcode) :
    ∃ k', k ≤ k' ∧ FirstUse k' names lib.names.list.length ∧
      Assembly.operand (lib.part k i) script o line op (.symbol (lib.names.name id)) =
        .ok (.value id, lib.part k' i, script) := by
  obtain ⟨n, hn, rfl, rest⟩ := uses
  have inside : n < lib.names.list.length := Nat.lt_of_lt_of_le (Nat.lt_succ_self n)
    (Nat.le_trans (Nat.le_max_right k (n + 1)) rest.le)
  have table : (lib.part k i).names.intern (lib.names.name (Int32.ofNat n)) =
      (Int32.ofNat n, lib.names.upTo (max k (n + 1))) :=
    Names.intern_upTo bounded.names listable.distinct inside hn
  refine ⟨_, Nat.le_max_left k (n + 1), rest, ?_⟩
  simp only [Assembly.operand, table]
  rfl

/-- A literal that is mentioned is entered again, with the number that it has. -/
theorem operand_constant (listable : lib.Listable) (bounded : lib.Bounded) (hs : s ∈ lib.scripts)
    {l : Nat} {id : Int32} (uses : FirstUse l (id :: literals) s.literals.size) (lib' : Library) :
    ∃ x l', Listing.literalAt? s id = some x ∧ FirstUse l' literals s.literals.size ∧
      Assembly.operand lib' ⟨opened, s.part s.properties l j⟩ o line .pushCons x.token =
        .ok (.value id, lib', ⟨opened, s.part s.properties l' j⟩) := by
  obtain ⟨n, hn, rfl, rest⟩ := uses
  have inside : n < s.literals.size := Nat.lt_of_lt_of_le (Nat.lt_succ_self n)
    (Nat.le_trans (Nat.le_max_right l (n + 1)) rest.le)
  have here : s.literals[n]? = some s.literals[n] := Array.getElem?_eq_getElem inside
  have toInt := toInt_ofNat (Nat.lt_of_lt_of_le inside (bounded.literals s hs))
  have script := listable.scripts s hs
  have alike := (script.literals _ (Array.getElem_mem inside)).same_self
  have table : internLiteral (s.part s.properties l j).literals s.literals[n] =
      (Int32.ofNat n, (s.literals.toList.take (max l (n + 1))).toArray) :=
    internLiteral_take script.distinct here alike hn
  refine ⟨s.literals[n], _, ?_, rest, ?_⟩
  · rw [Listing.literalAt?, toInt, if_neg (by omega), Int.toNat_natCast, here]
  · rw [operand_literal, table]
    rfl

/-- The operand of an instruction is read back as what it was printed of. -/
theorem operand_again (listable : lib.Listable) (bounded : lib.Bounded)
    (floats : lib.FloatsReadBack) (hs : s ∈ lib.scripts) (hh : h ∈ s.handlers)
    (code : h.code = (laidOut items).toArray) (writable : Writable items lib.slotScale)
    {p : Nat} {op : Opcode} {r : Resolved} (hp : items[p]? = some (op, r)) {instr : Instruction}
    (hi : (laidOut items)[p]? = some instr) (takes : op.takesArgument = true) {k l : Nat}
    (uses : FirstUse k (instr.nameId?.toList ++ names) lib.names.list.length)
    (literal : FirstUse l (instr.literalId?.toList ++ literals) s.literals.size) :
    ∃ k' l', k ≤ k' ∧ FirstUse k' names lib.names.list.length ∧
      FirstUse l' literals s.literals.size ∧
      Assembly.operand (lib.part k i) ⟨opened, s.part s.properties l j⟩ o line op
          (Listing.operandToken lib s instr) =
        .ok ((spelling (settledSizes items) (op, r)).2, lib.part k' i,
          ⟨opened, s.part s.properties l' j⟩) := by
  have short : (settledSizes items).sum < 2147483648 := by
    rw [← byteLength_laidOut code]
    exact bounded.code s hs h hh
  have jump := jumpTarget?_item writable short hp hi
  have allowed := writable _ (List.mem_of_getElem? hp)
  have mentions := legible listable bounded floats hs hh code writable hp hi
  obtain ⟨i', hi', -, opcode, argument⟩ := laidOut_item hp
  cases hi.symm.trans hi'
  rw [Instruction.nameId?, opcode] at uses
  rw [Instruction.literalId?, opcode] at literal
  dsimp only at uses literal
  unfold Listing.operandToken
  rw [jump, opcode]
  cases r with
  | index target =>
    obtain ⟨noName, -, noCons, -⟩ := plain_of_isJump allowed.1
    rw [noName] at uses
    rw [if_neg noCons] at literal
    exact ⟨k, l, Nat.le_refl k, uses, literal, rfl⟩
  | value n =>
    have argument : instr.argument = n := argument
    have spelled : (spelling (settledSizes items) (op, .value n)).2 = .value n := if_pos takes
    rw [argument] at uses literal ⊢
    rw [spelled]
    dsimp only
    by_cases takesName : op.takesName = true
    · rw [if_pos takesName] at uses ⊢
      rw [if_neg (plain_of_takesName takesName).2.1] at literal
      obtain ⟨k', le, rest, entered⟩ := operand_mentioned names o line listable bounded uses _ op
      exact ⟨k', l, le, rest, literal, entered⟩
    rw [if_neg takesName] at uses ⊢
    by_cases takesSlot : op.takesSlot = true
    · rw [if_pos takesSlot]
      obtain ⟨noCons, noFloat⟩ := plain_of_takesSlot takesSlot
      rw [if_neg noCons] at literal
      refine ⟨k, l, Nat.le_refl k, uses, literal, ?_⟩
      have scaled : n / lib.slotScale * (lib.part k i).slotScale = n := allowed.2.2.2.1 takesSlot
      rw [operand_int _ _ _ _ _ noCons noFloat, if_pos takesSlot, scaled]
    rw [if_neg takesSlot]
    by_cases pushCons : op = .pushCons
    · rw [if_pos pushCons] at literal
      obtain ⟨x, l', found, rest, entered⟩ :=
        operand_constant literals o line opened listable bounded hs literal (lib.part k i)
      rw [if_pos (beq_iff_eq.mpr pushCons), found, pushCons]
      refine ⟨k, l', Nat.le_refl k, uses, rest, ?_⟩
      cases x <;> exact entered
    rw [if_neg pushCons] at literal
    rw [if_neg (by simpa using pushCons)]
    by_cases pushFloat : op = .pushFloat32
    · rw [if_pos (beq_iff_eq.mpr pushFloat)]
      obtain ⟨-, read⟩ := mentions.single (opcode.trans pushFloat)
      rw [argument] at read
      obtain ⟨y, hy, rounded⟩ := Option.map_eq_some_iff.mp read
      rw [hy, Option.getD_some]
      refine ⟨k, l, Nat.le_refl k, uses, literal, ?_⟩
      subst pushFloat
      simp only [Assembly.operand, singleOperand?, rounded]
      rfl
    · rw [if_neg (by simpa using pushFloat)]
      refine ⟨k, l, Nat.le_refl k, uses, literal, ?_⟩
      rw [operand_int _ _ _ _ _ pushCons pushFloat, if_neg takesSlot]

end

/-- An instruction that is read back belongs to the body. -/
theorem Gathered.push {locals : List Int32} {marked p : Nat} {o : OpenHandler}
    (gathered : Gathered lib h items locals p marked o) {item : Item} (hp : items[p]? = some item)
    (line : Nat) {operand : Operand}
    (spelled : spelling (settledSizes items) item = (item.1, operand)) :
    Gathered lib h items locals (p + 1) marked
      { o with body := o.body.push ⟨line, item.1, operand⟩ } where
  nameId := gathered.nameId
  params := gathered.params
  locals := gathered.locals
  labels := gathered.labels
  body := by
    rw [List.take_add_one, hp, Option.toList_some, List.map_append, ← gathered.body,
      Array.toList_push, List.map_append, List.map_singleton, List.map_singleton, spelled]

/-- The line of an instruction. -/
theorem feeds_instruction (listable : lib.Listable) (bounded : lib.Bounded)
    (floats : lib.FloatsReadBack) (hs : s ∈ lib.scripts) (hh : h ∈ s.handlers)
    (code : h.code = (laidOut items).toArray) (writable : Writable items lib.slotScale)
    {p : Nat} {instr : Instruction} (hi : (laidOut items)[p]? = some instr) :
    Feeds
      (InHandler lib i s j h items locals p (p + 1) (instr.nameId?.toList ++ names)
        (instr.literalId?.toList ++ literals))
      [Listing.instructionLine lib s instr]
      (InHandler lib i s j h items locals (p + 1) (p + 1) names literals) := by
  have inside : p < items.length := by
    obtain ⟨inside, -⟩ := List.getElem?_eq_some_iff.mp hi
    rwa [length_laidOut] at inside
  obtain ⟨⟨op, r⟩, hp⟩ : ∃ item, items[p]? = some item := ⟨_, List.getElem?_eq_getElem inside⟩
  obtain ⟨i', hi', -, opcode, -⟩ := laidOut_item hp
  cases hi.symm.trans hi'
  have allowed := writable _ (List.mem_of_getElem? hp)
  have printed := Listing.prints_instruction
    (legible listable bounded floats hs hh code writable hp hi)
    (by rw [opcode]; exact allowed.valid)
  rw [opcode] at printed
  refine feeds_statement printed fun line a ha => ?_
  obtain ⟨k, l, opened, o, uses, literal, known, gathered, rfl⟩ := ha
  rw [statement_instruction allowed.valid]
  have found := ofMnemonic?_mnemonic _ allowed.valid
  cases takes : op.takesArgument with
  | true =>
    obtain ⟨k', l', le, uses', literal', operand⟩ := operand_again names literals (i := i) (j := j)
      o line opened listable bounded floats hs hh code writable hp hi takes uses literal
    have spelled : spelling (settledSizes items) (op, r) =
        (op, (spelling (settledSizes items) (op, r)).2) := rfl
    refine ⟨_, ?_, k', l', opened, _, uses', literal', known.mono le,
      gathered.push hp line spelled, rfl⟩
    unfold Assembly.instruction
    dsimp only
    rw [found]
    dsimp only
    rw [takes, if_pos rfl, if_pos rfl]
    exact bind_eq_ok.mpr ⟨_, operand, rfl⟩
  | false =>
    obtain ⟨noName, -, -, noCons, -⟩ := plain_of_takes takes
    rw [Instruction.nameId?, opcode, noName] at uses
    rw [Instruction.literalId?, opcode, if_neg noCons] at literal
    refine ⟨_, ?_, k, l, opened, _, uses, literal, known,
      gathered.push hp line (spelling_plain allowed takes), rfl⟩
    unfold Assembly.instruction
    dsimp only
    rw [found]
    dsimp only
    rw [takes, if_neg Bool.false_ne_true, if_neg Bool.false_ne_true]
    rfl

/-- The lines of the instructions. -/
theorem feeds_code (listable : lib.Listable) (bounded : lib.Bounded)
    (floats : lib.FloatsReadBack) (hs : s ∈ lib.scripts) (hh : h ∈ s.handlers)
    (code : h.code = (laidOut items).toArray) (writable : Writable items lib.slotScale) :
    Feeds
      (InHandler lib i s j h items locals 0 0
        ((laidOut items).filterMap Instruction.nameId? ++ names)
        ((laidOut items).filterMap Instruction.literalId? ++ literals))
      ((laidOut items).flatMap fun instr =>
        Listing.labelLines h.targets instr.offset ++ [Listing.instructionLine lib s instr])
      (InHandler lib i s j h items locals items.length items.length names literals) := by
  have run := Feeds.each
    (fun p => InHandler lib i s j h items locals p p
      (((laidOut items).drop p).filterMap Instruction.nameId? ++ names)
      (((laidOut items).drop p).filterMap Instruction.literalId? ++ literals))
    (fun instr =>
      Listing.labelLines h.targets instr.offset ++ [Listing.instructionLine lib s instr])
    (laidOut items) fun p hp => by
      have inside : p < items.length := by rwa [length_laidOut] at hp
      have here : (laidOut items)[p]? = some (laidOut items)[p] := List.getElem?_eq_getElem hp
      have offset := offset_laidOut hp
      rw [List.drop_eq_getElem_cons hp, offset]
      refine (feeds_labels _ _ _ (Nat.le_of_lt inside)).append ?_
      have line := feeds_instruction (i := i) (j := j) locals
        (((laidOut items).drop (p + 1)).filterMap Instruction.nameId? ++ names)
        (((laidOut items).drop (p + 1)).filterMap Instruction.literalId? ++ literals)
        listable bounded floats hs hh code writable here
      rw [← List.append_assoc, ← List.append_assoc] at line
      have cons : ∀ (f : Instruction → Option Int32) (rest : List Instruction),
          ((laidOut items)[p] :: rest).filterMap f =
            (f (laidOut items)[p]).toList ++ rest.filterMap f := by
        intro f rest
        rw [List.filterMap_cons]
        cases f (laidOut items)[p] <;> rfl
      rw [cons, cons]
      exact line
  rw [List.drop_length, length_laidOut] at run
  exact run

/-- A jump leads to one of the offsets that get a label. -/
theorem targets_contains (code : h.code = (laidOut items).toArray)
    (writable : Writable items lib.slotScale)
    (short : (settledSizes items).sum < 2147483648) (op : Opcode) (target : Nat)
    (mem : (op, Resolved.index target) ∈ items) :
    h.targets.contains (start (settledSizes items) target : Int) = true := by
  obtain ⟨p, hp⟩ := List.mem_iff_getElem?.mp mem
  obtain ⟨instr, hi, -⟩ := laidOut_item hp
  have jump := jumpTarget?_item writable short hp hi
  rw [List.contains_eq_mem, decide_eq_true_eq, Handler.targets, code]
  exact List.mem_filterMap.mpr ⟨instr, List.mem_of_getElem? hi, jump⟩

/-- The next handler of a script. -/
theorem part_push (properties : List Int32) (l : Nat) (hj : j < s.handlers.size) :
    s.part properties l (j + 1) =
      { s.part properties l j with
        handlers := (s.part properties l j).handlers.push s.handlers[j] } := by
  have next : s.handlers.toList.take (j + 1) = s.handlers.toList.take j ++ [s.handlers[j]] :=
    List.take_succ_eq_append_getElem (l := s.handlers.toList) hj
  rw [Script.part, Script.part, next, ← List.push_toArray]

/-- The end of a handler: its body is laid out as it was. -/
theorem feeds_endHandler (listable : lib.Listable) (bounded : lib.Bounded) (hs : s ∈ lib.scripts)
    (hh : s.handlers[j]? = some h)
    (code : h.code = (laidOut items).toArray) (writable : Writable items lib.slotScale) :
    Feeds (InHandler lib i s j h items h.locals items.length (items.length + 1) names literals)
      ["  end"] (InScript lib i s s.properties (j + 1) names literals) := by
  refine feeds_statement (Token.prints_end 2 "  end" rfl) fun line a ha => ?_
  obtain ⟨k, l, opened, o, uses, literal, known, gathered, rfl⟩ := ha
  obtain ⟨hj, rfl⟩ := Array.getElem?_eq_some_iff.mp hh
  have handler := (listable.scripts s hs).handlers j _ hh
  have short : (settledSizes items).sum < 2147483648 := by
    rw [← byteLength_laidOut code]
    exact bounded.code s hs _ (Array.getElem_mem hj)
  have body := gathered.body
  rw [List.take_length] at body
  have laid := relayout writable (targets_contains code writable short) body
  rw [← gathered.labels] at laid
  have size : (s.part s.properties l j).handlers.size = j := by
    rw [Script.part, List.size_toArray, List.length_take, Array.length_toList]
    omega
  have built : buildHandler (lib.names.upTo k) o j = .ok s.handlers[j] := by
    have params := filterMap_find? listable bounded uses.le fun id hid =>
      known id (List.mem_append_left _ hid)
    have locals := filterMap_find? listable bounded uses.le fun id hid =>
      known id (List.mem_append_right _ hid)
    refine bind_eq_ok.mpr ⟨_, laid, ?_⟩
    rw [gathered.nameId, gathered.params, gathered.locals, params, locals, ← handler.vectorPos,
      ← code]
    rfl
  have directive : endDirective
      { library := lib.part k i, block := .handler ⟨opened, s.part s.properties l j⟩ o } line [] =
      .ok { library := lib.part k i, block := .script ⟨opened, s.part s.properties l (j + 1)⟩ } := by
    unfold endDirective
    dsimp only
    rw [size]
    refine bind_eq_ok.mpr ⟨_, built, ?_⟩
    rw [part_push s.properties l hj]
    rfl
  exact ⟨_, directive, k, l, opened, uses, literal, rfl⟩

/-- The lines of a handler. -/
theorem feeds_handlerLines (listable : lib.Listable) (bounded : lib.Bounded)
    (floats : lib.FloatsReadBack) (hs : s ∈ lib.scripts) (hh : s.handlers[j]? = some h) :
    Feeds (InScript lib i s s.properties j (h.nameIds ++ names) (h.literalIds ++ literals))
      (Listing.handlerLines lib s h) (InScript lib i s s.properties (j + 1) names literals) := by
  have mem : h ∈ s.handlers := Array.mem_of_getElem? hh
  obtain ⟨items, code, writable⟩ := ((listable.scripts s hs).handlers j h hh).code
  have list : h.code.toList = laidOut items := by rw [code]
  have length : h.byteLength = start (settledSizes items) items.length := by
    rw [byteLength_laidOut code, start_length]
  have header := feeds_handler (i := i) listable bounded hs hh items
    (h.locals ++ ((laidOut items).filterMap Instruction.nameId? ++ names))
    ((laidOut items).filterMap Instruction.literalId? ++ literals)
  have locals := feeds_locals (i := i) listable bounded hs hh items
    ((laidOut items).filterMap Instruction.nameId? ++ names)
    ((laidOut items).filterMap Instruction.literalId? ++ literals)
  have body := feeds_code (i := i) (j := j) h.locals names literals listable bounded floats hs mem
    code writable
  have close := feeds_endHandler (i := i) names literals listable bounded hs hh code writable
  have start := (header.append locals).append body
  have lines := (start.append (feeds_labels _ _ _ (Nat.le_refl items.length))).append close
  rw [Handler.nameIds, Handler.literalIds, list]
  have targets : h.targets = (laidOut items).filterMap Instruction.jumpTarget? := by
    rw [Handler.targets, list]
  unfold Listing.handlerLines
  simp only [List.cons_append, List.append_assoc, list, length, targets] at lines ⊢
  exact lines

end

/-! ## Scripts and libraries -/

section

variable {lib : Library} (listable : lib.Listable) (bounded : lib.Bounded)
  (floats : lib.FloatsReadBack)
include listable bounded floats

theorem feeds_scriptLines {i : Nat} {s : Script} (hs : lib.scripts[i]? = some s) :
    Feeds (AtTop lib i) (Listing.scriptLines lib s) (AtTop lib (i + 1)) := by
  have mem : s ∈ lib.scripts := Array.mem_of_getElem? hs
  have header := feeds_script listable hs
  have properties := feeds_properties (i := i) listable bounded mem
    (s.handlers.toList.flatMap Handler.nameIds ++
      (lib.scripts.toList.drop (i + 1)).flatMap Script.nameIds)
    s.literalIds
  have handlers := Feeds.each
    (fun j => InScript lib i s s.properties j
      ((s.handlers.toList.drop j).flatMap Handler.nameIds ++
        (lib.scripts.toList.drop (i + 1)).flatMap Script.nameIds)
      ((s.handlers.toList.drop j).flatMap Handler.literalIds))
    (Listing.handlerLines lib s) s.handlers.toList fun j hj => by
      have here : s.handlers[j]? = some s.handlers.toList[j] := by
        rw [← Array.getElem?_toList, List.getElem?_eq_getElem hj]
      rw [List.drop_eq_getElem_cons hj, List.flatMap_cons, List.flatMap_cons, List.append_assoc]
      exact feeds_handlerLines _ _ listable bounded floats mem here
  rw [List.drop_length, Array.length_toList] at handlers
  have close := feeds_endScript hs
  rw [Script.nameIds, List.append_assoc] at header
  have lines := ((header.append properties).append handlers).append close
  unfold Listing.scriptLines
  simp only [List.append_assoc] at lines ⊢
  exact lines

theorem feeds_libraryLines :
    Feeds (fun a => a = {}) (Listing.libraryLines lib) (AtTop lib lib.scripts.size) := by
  have header := feeds_library listable
  have scripts := Feeds.each (AtTop lib) (Listing.scriptLines lib) lib.scripts.toList fun i hi => by
      have here : lib.scripts[i]? = some lib.scripts.toList[i] := by
        rw [← Array.getElem?_toList, List.getElem?_eq_getElem hi]
      exact feeds_scriptLines listable bounded floats here
  rw [Array.length_toList] at scripts
  exact header.append scripts

/-- A library that can be listed is what its listing is assembled to. -/
theorem assemble_listing : assemble (listing lib) = .ok lib := by
  have lines := feeds_libraryLines listable bounded floats
  obtain ⟨a, accepted, k, uses, rfl⟩ := lines.accepted 1 {} rfl
  rw [assemble, listing, textLines_join lines.line, accepted]
  have whole : lib.part k lib.scripts.size = lib := by
    have all : lib.scripts.toList.drop lib.scripts.size = [] := by
      rw [← Array.length_toList, List.drop_length]
    rw [all] at uses
    rw [Library.part, ← show lib.names.list.length = k from uses, Names.upTo_size,
      ← Array.length_toList, List.take_length]
  rw [whole]
  rfl

end

end Relisting

end Lingo
