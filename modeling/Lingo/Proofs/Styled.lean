import Lingo.Proofs.Operands
import Lingo.Proofs.Relisting

/-!
# Texts in the style of listings

A text is in the style of listings (`inListingStyle`) if in each script the
properties stand before the handlers, in each handler the local variables stand
before the instructions, operands are written as in a listing, and strings can be
quoted. Along such a text, what has been read can be listed (`Assembly.Tidy`), so
that an accepted text becomes a library that is assembled again from its listing
(`listing_round_trip`).
-/

namespace Lingo

open Number
open Token (Word)

/-! ## Style -/

namespace Style

/-- Whether a line is written as in a listing, where it stands. -/
def line (a : Assembly) (number : Nat) (tokens : List Token) : Bool :=
  tokens.all Token.isQuotable &&
    match a.block, statementOf tokens with
    | .script s, .word word :: _ =>
      !(["property", "properties"].contains (Text.asciiLower word)) || s.script.handlers.isEmpty
    | .handler _ h, .word word :: args =>
      (!(["local", "locals"].contains (Text.asciiLower word)) || h.body.isEmpty) &&
        match Opcode.ofMnemonic? word, args with
        | some op, [token] => operand a.library h number op token
        | _, _ => true
    | _, _ => true

/-- Whether lines are written as in a listing, up to the first that is
refused. -/
def lines : Nat → Assembly → List (List Char) → Bool
  | _, _, [] => true
  | number, a, text :: rest =>
    line a number (lineTokens text) &&
      match a.feed number text with
      | .ok a => lines (number + 1) a rest
      | .error _ => true

end Style

/-- Whether a text is written in the order and style of listings. -/
def inListingStyle (text : String) : Bool :=
  Style.lines 1 {} (textLines text)

/-! ## What has been read -/

/-- The numbers of the names that an open handler mentions. -/
def OpenHandler.nameIds (names : Names) (h : OpenHandler) : List Int32 :=
  h.nameId :: (h.params.filterMap names.find? ++ (h.locals.filterMap names.find? ++
    h.body.toList.filterMap (Pending.mentioned Opcode.takesName)))

/-- The numbers of the literals that an open handler mentions. -/
def OpenHandler.literalIds (h : OpenHandler) : List Int32 :=
  h.body.toList.filterMap (Pending.mentioned (· == .pushCons))

/-- An open handler that can be listed. -/
structure OpenHandler.Tidy (names : Names) (scale : Int32) (h : OpenHandler) : Prop where
  nameId : names.Declared h.nameId
  found : ∀ name ∈ h.params ++ h.locals, Word name.toList ∧ (names.find? name).isSome = true
  body : ∀ p ∈ h.body, p.Writable scale
  labels : ∀ name target, h.labels.lookup name = some target → target ≤ h.body.size

namespace Block

/-- The numbers of the names that an open block mentions. -/
def nameIds (names : Names) : Block → List Int32
  | .top => []
  | .script s => s.script.nameIds
  | .handler s h => s.script.nameIds ++ h.nameIds names

/-- The member of the open script. -/
def members : Block → List Int32
  | .top => []
  | .script s => [s.script.member]
  | .handler s _ => [s.script.member]

/-- An open block that can be listed. -/
def Tidy (names : Names) (scale : Int32) : Block → Prop
  | .top => True
  | .script s => s.script.Listable names scale []
  | .handler s h => s.script.Listable names scale h.literalIds ∧ h.Tidy names scale

end Block

/-- What has been read can be listed. -/
structure Assembly.Tidy (a : Assembly) : Prop where
  name : Quotable a.library.name
  distinct : Distinct Text.sameName a.library.names.list
  names : ∀ name ∈ a.library.names.list, ∀ c ∈ name.toList, Token.endsWord c = false
  uses : FirstUse 0 (a.library.nameIds ++ a.block.nameIds a.library.names)
    a.library.names.list.length
  members : (a.library.scripts.toList.map Script.member ++ a.block.members).Nodup
  scripts : ∀ s ∈ a.library.scripts, s.Listable a.library.names a.library.slotScale []
  block : a.block.Tidy a.library.names a.library.slotScale

/-! ## Names that are declared -/

theorem filterMap_of_map {α β : Type} {f : α → Option β} {xs : List α} {ys : List β}
    (h : xs.map f = ys.map some) : xs.filterMap f = ys := by
  induction xs generalizing ys with
  | nil => exact (List.map_eq_nil_iff.mp h.symm).symm
  | cons x xs ih =>
    cases ys with
    | nil => cases h
    | cons y ys =>
      obtain ⟨head, tail⟩ := List.cons.inj h
      rw [List.filterMap_cons_some head, ih tail]

namespace Names

variable {names names' : Names}

theorem declared_of_find? {name : String} {id : Int32} (word : Word name.toList)
    (found : names.find? name = some id) : names.Declared id := by
  rw [find?_eq, Option.map_eq_some_iff] at found
  obtain ⟨i, hi, rfl⟩ := found
  obtain ⟨inside, same, -⟩ := List.findIdx?_eq_some_iff_getElem.mp hi
  exact ⟨i, names.list[i], rfl, List.getElem?_eq_getElem inside, word.of_same same⟩

theorem Interned.declared {added : List String} {ids : List Int32}
    (h : names.Interned added ids names') (words : ∀ name ∈ added, Word name.toList) :
    ∀ id ∈ ids, names'.Declared id := by
  intro id hid
  rw [← filterMap_of_map h.found] at hid
  obtain ⟨name, hname, found⟩ := List.mem_filterMap.mp hid
  exact declared_of_find? (words name hname) found

theorem Interned.isSome {added : List String} {ids : List Int32}
    (h : names.Interned added ids names') {name : String} (hname : name ∈ added) :
    (names'.find? name).isSome = true := by
  have mem : names'.find? name ∈ ids.map some := by
    rw [← h.found]
    exact List.mem_map_of_mem hname
  obtain ⟨id, -, found⟩ := List.mem_map.mp mem
  rw [← found]
  rfl

theorem isSome_of_prefix (h : names.list <+: names'.list) {name : String}
    (found : (names.find? name).isSome = true) : (names'.find? name).isSome = true := by
  obtain ⟨id, hid⟩ := Option.isSome_iff_exists.mp found
  rw [find?_mono h hid]
  rfl

theorem filterMap_find?_mono (h : names.list <+: names'.list) {added : List String}
    (found : ∀ name ∈ added, (names.find? name).isSome = true) :
    added.filterMap names'.find? = added.filterMap names.find? := by
  refine List.filterMap_congr fun name hname => ?_
  obtain ⟨id, hid⟩ := Option.isSome_iff_exists.mp (found name hname)
  rw [hid, find?_mono h hid]

end Names

/-- A member number that no script has is new. -/
theorem Library.not_mem_members (lib : Library) {member : Int32}
    (new : lib.scriptAt? member = none) : member ∉ lib.scripts.toList.map Script.member := by
  intro mem
  obtain ⟨s, hs, same⟩ := List.mem_map.mp mem
  exact Array.find?_eq_none.mp new s (Array.mem_toList_iff.mp hs) (beq_iff_eq.mpr same)

theorem declaredNames_ok {line : Nat} {args : List Token} {declared : List String}
    (h : Assembly.declaredNames line args = .ok declared) : args = declared.map .word := by
  have each := Layout.mapM_ok_iff.mp h
  induction each with
  | nil => rfl
  | @cons token name args declared head _ ih =>
    rw [List.map_cons, ← ih (Layout.mapM_ok_iff.mpr ‹_›)]
    cases token <;> cases head
    rfl

theorem words_of_declaredNames {line : Nat} {args : List Token} {declared : List String}
    (h : Assembly.declaredNames line args = .ok declared) (found : ∀ t ∈ args, t.Found) :
    ∀ name ∈ declared, Word name.toList := by
  intro name hname
  rw [declaredNames_ok h] at found
  exact found (.word name) (List.mem_map_of_mem hname)

/-- The handler that an open one becomes can be listed. -/
theorem OpenHandler.Tidy.listable {names : Names} {scale : Int32} {o : OpenHandler}
    (tidy : o.Tidy names scale)
    (writable : Layout.Writable (Layout.items o.body.toList o.labels) scale) (position : Nat) :
    Handler.Listable names scale position
      { nameId := o.nameId
        vectorPos := Int32.ofNat position
        params := o.params.filterMap names.find?
        locals := o.locals.filterMap names.find?
        code := (Layout.laidOut (Layout.items o.body.toList o.labels)).toArray } := by
  have declared : ∀ added : List String, added ⊆ o.params ++ o.locals →
      ∀ id ∈ added.filterMap names.find?, names.Declared id := by
    intro added among id hid
    obtain ⟨name, hname, hid⟩ := List.mem_filterMap.mp hid
    exact Names.declared_of_find? (tidy.found name (among hname)).1 hid
  exact {
    nameId := tidy.nameId
    params := declared _ (List.subset_append_left _ _)
    locals := declared _ (List.subset_append_right _ _)
    vectorPos := rfl
    code := ⟨_, rfl, writable⟩ }

/-! ## Steps -/

namespace Assembly

variable {a : Assembly}

/-- Names are declared and the open block changes. -/
theorem Tidy.declare (h : a.Tidy) {added : List String} {ids : List Int32} {names' : Names}
    (interned : a.library.names.Interned added ids names')
    (whole : ∀ name ∈ added, ∀ c ∈ name.toList, Token.endsWord c = false) {block : Block}
    (nameIds : block.nameIds names' = a.block.nameIds a.library.names ++ ids)
    (members : block.members = a.block.members)
    (tidy : block.Tidy names' a.library.slotScale) :
    Tidy { library := { a.library with names := names' }, block } where
  name := h.name
  distinct := interned.distinct h.distinct
  names := by
    intro name hname
    rcases interned.mem name hname with hname | hname
    · exact h.names name hname
    · exact whole name hname
  uses := by
    have all := firstUse_append.mpr ⟨_, h.uses, interned.uses⟩
    rw [List.append_assoc, ← nameIds] at all
    exact all
  members := by
    rw [members]
    exact h.members
  scripts := fun s hs => (h.scripts s hs).grow interned.grows
  block := tidy

/-- Only the open block changes. -/
theorem Tidy.block_only (h : a.Tidy) {block : Block}
    (nameIds : block.nameIds a.library.names = a.block.nameIds a.library.names)
    (members : block.members = a.block.members)
    (tidy : block.Tidy a.library.names a.library.slotScale) : Tidy { a with block } := by
  refine h.declare (.nil _) (fun _ h => absurd h List.not_mem_nil) ?_ members tidy
  rw [nameIds, List.append_nil]

theorem Tidy.start : Tidy {} where
  name := by decide
  distinct := List.Pairwise.nil
  names := fun _ h => absurd h List.not_mem_nil
  uses := rfl
  members := List.nodup_nil
  scripts := fun _ h => absurd h (Array.not_mem_empty _)
  block := trivial

/-- Names that are declared are whole words. -/
theorem whole_of_words {added : List String} (words : ∀ name ∈ added, Word name.toList) :
    ∀ name ∈ added, ∀ c ∈ name.toList, Token.endsWord c = false :=
  fun name hname => (words name hname).whole

/-- An open handler keeps what it has when names are added. -/
theorem nameIds_grow {names names' : Names} (grows : names.list <+: names'.list) {scale : Int32}
    {h : OpenHandler} (tidy : h.Tidy names scale) : h.nameIds names' = h.nameIds names := by
  rw [OpenHandler.nameIds, OpenHandler.nameIds]
  rw [Names.filterMap_find?_mono grows fun name hname =>
      (tidy.found name (List.mem_append_left _ hname)).2,
    Names.filterMap_find?_mono grows fun name hname =>
      (tidy.found name (List.mem_append_right _ hname)).2]

theorem tidy_grow {names names' : Names} (grows : names.list <+: names'.list) {scale : Int32}
    {h : OpenHandler} (tidy : h.Tidy names scale) : h.Tidy names' scale where
  nameId := tidy.nameId.grow grows
  found := fun name hname => ⟨(tidy.found name hname).1,
    Names.isSome_of_prefix grows (tidy.found name hname).2⟩
  body := tidy.body
  labels := tidy.labels

variable {line : Nat} {tokens : List Token}

theorem Tidy.label (h : a.Tidy) {s : OpenScript} {o : OpenHandler} (block : a.block = .handler s o)
    (name : String) :
    Tidy { a with block := .handler s { o with labels := o.labels ++ [(name, o.body.size)] } } := by
  have old := h.block
  rw [block] at old
  refine h.block_only ?_ ?_ ⟨old.1, { old.2 with labels := fun other target found => ?_ }⟩
  · rw [block]
    rfl
  · rw [block]
    rfl
  · rw [List.lookup_append, Option.or_eq_some_iff] at found
    rcases found with found | ⟨-, found⟩
    · exact old.2.labels other target found
    · have mem : target = o.body.size := by
        simp only [List.lookup_cons, List.lookup_nil] at found
        split at found <;> cases found
        rfl
      exact Nat.le_of_eq mem

theorem Tidy.property (h : a.Tidy) {s : OpenScript} (block : a.block = .script s)
    (first : s.script.handlers = #[]) {declared : List String}
    (words : ∀ name ∈ declared, Word name.toList) :
    Tidy { library := { a.library with names := (a.library.names.internAll declared).2 }
           block := .script { s with script := { s.script with
             properties := s.script.properties ++ (a.library.names.internAll declared).1 } } } := by
  have interned := Names.interned_internAll a.library.names declared
  have old := h.block
  rw [block] at old
  have grown : s.script.Listable _ _ _ := Script.Listable.grow interned.grows old
  refine h.declare interned (whole_of_words words) ?_ ?_
    { grown with properties := fun id hid => ?_, uses := ?_, handlers := ?_ }
  · rw [block]
    simp only [Block.nameIds, Script.nameIds, first]
    simp
  · rw [block]
    rfl
  · rcases List.mem_append.mp hid with hid | hid
    · exact grown.properties id hid
    · exact interned.declared words id hid
  · exact grown.uses
  · exact grown.handlers

theorem Tidy.handler (h : a.Tidy) {s : OpenScript} (block : a.block = .script s) {name : String}
    {params : List String} (words : ∀ other ∈ name :: params, Word other.toList) :
    Tidy { library := { a.library with
             names := ((a.library.names.intern name).2.internAll params).2 }
           block := .handler s
             { line, name, nameId := (a.library.names.intern name).1, params } } := by
  have interned : a.library.names.Interned (name :: params)
      ((a.library.names.intern name).1 ::
        ((a.library.names.intern name).2.internAll params).1)
      ((a.library.names.intern name).2.internAll params).2 :=
    Names.interned_internAll a.library.names (name :: params)
  have old := h.block
  rw [block] at old
  have grown : s.script.Listable _ _ _ := Script.Listable.grow interned.grows old
  refine h.declare interned (whole_of_words words) ?_ ?_ ⟨grown, ?_, fun other hother => ?_, ?_, ?_⟩
  · have found := filterMap_of_map interned.found
    rw [List.filterMap_cons_some (List.cons.inj interned.found).1] at found
    have params := (List.cons.inj found).2
    rw [block]
    simp only [Block.nameIds, OpenHandler.nameIds, params]
    simp
  · rw [block]
    rfl
  · exact interned.declared words _ List.mem_cons_self
  · rw [List.append_nil] at hother
    exact ⟨words other (List.mem_cons_of_mem name hother),
      interned.isSome (List.mem_cons_of_mem name hother)⟩
  · exact fun p hp => absurd hp (Array.not_mem_empty p)
  · exact fun _ _ found => nomatch found

theorem Tidy.locals (h : a.Tidy) {s : OpenScript} {o : OpenHandler} (block : a.block = .handler s o)
    (first : o.body = #[]) {declared : List String}
    (words : ∀ name ∈ declared, Word name.toList) :
    Tidy { library := { a.library with names := (a.library.names.internAll declared).2 }
           block := .handler s { o with locals := o.locals ++ declared } } := by
  have interned := Names.interned_internAll a.library.names declared
  have old := h.block
  rw [block] at old
  have grown : s.script.Listable _ _ _ := Script.Listable.grow interned.grows old.1
  have kept := tidy_grow interned.grows old.2
  refine h.declare interned (whole_of_words words) ?_ ?_
    ⟨grown, { kept with found := fun other hother => ?_, nameId := kept.nameId }⟩
  · have found := filterMap_of_map interned.found
    have before := nameIds_grow interned.grows old.2
    rw [block]
    simp only [Block.nameIds]
    rw [← before, OpenHandler.nameIds, OpenHandler.nameIds, List.filterMap_append, found, first]
    simp
  · rw [block]
    rfl
  · rw [← List.append_assoc] at hother
    rcases List.mem_append.mp hother with hother | hother
    · exact kept.found other hother
    · exact ⟨words other hother, interned.isSome hother⟩

theorem Tidy.push (h : a.Tidy) {s : OpenScript} {o : OpenHandler} (block : a.block = .handler s o)
    {s' : OpenScript} {names' : Names} {p : Pending}
    (styled : p.Styled a.library.slotScale a.library.names names' s.script s'.script)
    (kept : s'.script = { s.script with literals := s'.script.literals }) :
    Tidy { library := { a.library with names := names' }
           block := .handler s' { o with body := o.body.push p } } := by
  obtain ⟨added, whole, interned⟩ := styled.names
  have old := h.block
  rw [block] at old
  have script := (styled.literals _ _ _ old.1).grow interned.grows
  have handler := tidy_grow interned.grows old.2
  have mentions : ∀ f : Opcode → Bool, (o.body.push p).toList.filterMap (Pending.mentioned f) =
      o.body.toList.filterMap (Pending.mentioned f) ++ (p.mentioned f).toList := by
    intro f
    rw [Array.toList_push, List.filterMap_append, List.filterMap_cons]
    cases p.mentioned f <;> rfl
  have names : s'.script.nameIds = s.script.nameIds := by
    rw [kept]
    rfl
  refine h.declare interned whole ?_ ?_
    ⟨?_, { handler with body := fun q hq => ?_, labels := fun name target found => ?_ }⟩
  · have before := nameIds_grow interned.grows old.2
    rw [block]
    simp only [Block.nameIds]
    rw [← before, OpenHandler.nameIds, OpenHandler.nameIds, names]
    simp only [mentions, List.append_assoc, List.cons_append]
  · rw [block, Block.members, Block.members, kept]
  · rw [OpenHandler.literalIds, mentions]
    exact script
  · rcases Array.mem_push.mp hq with hq | rfl
    · exact handler.body q hq
    · exact styled.writable
  · have le := handler.labels name target found
    rw [Array.size_push]
    omega

theorem writable_items {scale : Int32} {body : List Pending} {labels : Labels}
    (writable : ∀ p ∈ body, p.Writable scale)
    (bounded : ∀ name target, labels.lookup name = some target → target ≤ body.length)
    (resolves : Layout.Resolves body labels) :
    Layout.Writable (Layout.items body labels) scale := by
  intro item hitem
  obtain ⟨p, hp, rfl⟩ := List.mem_map.mp hitem
  have allowed := writable p hp
  rw [Layout.items, List.length_map]
  cases ho : p.operand with
  | absent =>
    simp only [Pending.Writable, ho] at allowed
    obtain ⟨-, noSlot, noJump, -, noFloat⟩ := plain_of_takes allowed.2
    exact ⟨allowed.1, noJump, fun _ => rfl,
      fun yes => absurd (noSlot.symm.trans yes) Bool.false_ne_true, fun yes => absurd yes noFloat⟩
  | value n =>
    simp only [Pending.Writable, ho] at allowed
    exact allowed
  | label name =>
    simp only [Pending.Writable, ho] at allowed
    obtain ⟨target, ht⟩ := Option.isSome_iff_exists.mp (resolves p hp name ho)
    refine ⟨allowed, ?_⟩
    rw [ht, Option.getD_some]
    exact bounded name target ht

/-- What the instructions of a body mention does not depend on its labels. -/
theorem filterMap_items (mentions : Opcode → Bool) (body : List Pending) (labels : Labels) :
    (Layout.items body labels).filterMap (Layout.mentioned mentions) =
      body.filterMap (Pending.mentioned mentions) := by
  rw [Layout.items, List.filterMap_map]
  refine List.filterMap_congr fun p _ => ?_
  rw [Function.comp_apply, Pending.mentioned]
  cases p.operand <;> rfl

/-- The code of a body mentions what the body mentions. -/
theorem laidOut_mentions {o : OpenHandler} {scale : Int32}
    (writable : Layout.Writable (Layout.items o.body.toList o.labels) scale) :
    let code := Layout.laidOut (Layout.items o.body.toList o.labels)
    code.filterMap Instruction.nameId? =
        o.body.toList.filterMap (Pending.mentioned Opcode.takesName) ∧
      code.filterMap Instruction.literalId? = o.literalIds := by
  intro code
  have names := Layout.filterMap_laidOut Opcode.takesName (fun op yes => by
    cases jump : op.isJump with
    | false => rfl
    | true => exact yes.symm.trans (plain_of_isJump jump).1) writable
  have literals := Layout.filterMap_laidOut (· == .pushCons) (fun op yes => by
    rw [beq_iff_eq.mp yes]
    rfl) writable
  rw [filterMap_items] at names literals
  refine ⟨names, ?_⟩
  rw [OpenHandler.literalIds, ← literals]
  exact List.filterMap_congr fun i _ => if_congr beq_iff_eq.symm rfl rfl

theorem Tidy.endHandler (h : a.Tidy) {s : OpenScript} {o : OpenHandler}
    (block : a.block = .handler s o) {code : List Instruction}
    (hc : layout o.body.toList o.labels = .ok code) :
    Tidy { a with block := .script { s with script := { s.script with
      handlers := s.script.handlers.push
        { nameId := o.nameId
          vectorPos := Int32.ofNat s.script.handlers.size
          params := o.params.filterMap a.library.names.find?
          locals := o.locals.filterMap a.library.names.find?
          code := code.toArray } } } } := by
  have old := h.block
  rw [block] at old
  obtain ⟨script, handler⟩ := old
  have bounded : ∀ name target, o.labels.lookup name = some target →
      target ≤ o.body.toList.length := handler.labels
  have resolves := Layout.resolves_of_layout hc
  have laid := Layout.layout_eq bounded resolves
  rw [hc] at laid
  cases laid
  have writable := writable_items (fun p hp => handler.body p (Array.mem_toList_iff.mp hp))
    bounded resolves
  obtain ⟨codeNames, codeLiterals⟩ := laidOut_mentions writable
  refine h.block_only ?_ ?_ { script with uses := ?_, handlers := fun j listed hj => ?_ }
  · rw [block]
    simp only [Block.nameIds, Script.nameIds, OpenHandler.nameIds, Array.toList_push,
      List.flatMap_append, List.flatMap_cons, List.flatMap_nil, Handler.nameIds, codeNames,
      List.append_nil, List.append_assoc]
  · rw [block]
    rfl
  · simp only [Script.literalIds, Array.toList_push, List.flatMap_append, List.flatMap_cons,
      List.flatMap_nil, Handler.literalIds, codeLiterals, List.append_nil]
    exact script.uses
  · rw [Array.getElem?_push] at hj
    split at hj
    · rename_i last
      cases hj
      subst last
      exact handler.listable writable _
    · exact script.handlers j listed hj

theorem Tidy.endScript (h : a.Tidy) {s : OpenScript} (block : a.block = .script s) :
    Tidy { library := { a.library with scripts := a.library.scripts.push s.script }
           block := .top } := by
  have old := h.block
  have uses := h.uses
  have members := h.members
  rw [block] at old uses members
  refine ⟨h.name, h.distinct, h.names, ?_, ?_, fun t ht => ?_, trivial⟩
  · simp only [Block.nameIds, Library.nameIds, Array.toList_push, List.flatMap_append,
      List.flatMap_cons, List.flatMap_nil, List.append_nil] at uses ⊢
    exact uses
  · simp only [Block.members, Array.toList_push, List.map_append, List.map_cons, List.map_nil,
      List.append_nil] at members ⊢
    exact members
  · rcases Array.mem_push.mp ht with ht | rfl
    · exact h.scripts t ht
    · exact old

theorem Tidy.script (h : a.Tidy) (block : a.block = .top) {n : Int32} {kind : ScriptKind}
    {name kindWord : String} (hk : ScriptKind.ofName? kindWord = some kind)
    (new : a.library.scriptAt? n = none) (quotable : Quotable name) :
    Tidy { a with block := .script ⟨line, { member := n, kind, name }⟩ } := by
  have members := h.members
  have uses := h.uses
  rw [block] at members uses
  have known : kind ≠ .unknown := by
    rintro rfl
    exact absurd (List.mem_of_find?_eq_some hk) (by decide)
  refine ⟨h.name, h.distinct, h.names, uses, ?_, h.scripts, ⟨known, quotable, ?_, ?_, ?_, rfl, ?_⟩⟩
  · rw [Block.members, List.append_nil] at members
    refine List.nodup_append.mpr ⟨members, List.pairwise_singleton _ n, fun m hm k hk same => ?_⟩
    rw [List.mem_singleton.mp hk] at same
    rw [show m = n from same] at hm
    exact a.library.not_mem_members new hm
  · exact fun _ h => absurd h List.not_mem_nil
  · exact List.Pairwise.nil
  · exact fun _ h => absurd h (Array.not_mem_empty _)
  · exact fun j other hj => nomatch hj

theorem librarySettings_quotable {settings : List Token} {lib lib' : Library}
    (h : settings.foldlM (librarySetting line) lib = .ok lib') (name : Quotable lib.name)
    (quotable : ∀ t ∈ settings, t.isQuotable = true) : Quotable lib'.name := by
  induction settings generalizing lib with
  | nil =>
    cases h
    exact name
  | cons token settings ih =>
    rw [List.foldlM_cons] at h
    obtain ⟨lib₁, h₁, h⟩ := bind_eq_ok.mp h
    refine ih h ?_ fun t ht => quotable t (List.mem_cons_of_mem token ht)
    have first := quotable token List.mem_cons_self
    unfold librarySetting at h₁
    split at h₁
    · cases h₁
      exact List.all_eq_true.mp first
    · split at h₁
      · split at h₁ <;> cases h₁
        exact name
      · cases h₁
    · split at h₁ <;> cases h₁
      exact name
    · cases h₁

theorem Tidy.library (h : a.Tidy) (block : a.block = .top) (first : a.library.scripts = #[])
    {settings : List Token} {n : Int32} {lib : Library}
    (hs : settings.foldlM (librarySetting line) { a.library with number := n } = .ok lib)
    (quotable : ∀ t ∈ settings, t.isQuotable = true) : Tidy { a with library := lib } := by
  obtain ⟨-, names, scripts⟩ := librarySettings_keep hs
  have scripts : lib.scripts = a.library.scripts := scripts
  have names : lib.names = a.library.names := names
  have name := librarySettings_quotable hs h.name quotable
  refine ⟨name, ?_, ?_, ?_, ?_, ?_, ?_⟩
  · rw [names]
    exact h.distinct
  · rw [names]
    exact h.names
  · have uses := h.uses
    rw [Library.nameIds] at uses ⊢
    rw [names, scripts]
    exact uses
  · rw [scripts]
    exact h.members
  · intro s hs
    rw [scripts, first] at hs
    exact absurd hs (Array.not_mem_empty s)
  · simp only [block]
    trivial

/-! ## Lines -/

/-- A statement in the style of listings leads from what can be listed to what can
be listed. -/
theorem Stated.tidy {a' : Assembly} (h : a.Tidy) (stated : Stated line a (statementOf tokens) a')
    (styled : Style.line a line tokens = true) (found : ∀ t ∈ tokens, t.Found) : a'.Tidy := by
  rw [Style.line, Bool.and_eq_true] at styled
  obtain ⟨quotable, placed⟩ := styled
  have quotable := List.all_eq_true.mp quotable
  have part : ∀ t ∈ statementOf tokens, t ∈ tokens := (statementOf_suffix tokens).subset
  generalize statementOf tokens = statement at stated placed part
  have found : ∀ t ∈ statement, t.Found := fun t ht => found t (part t ht)
  have quotable : ∀ t ∈ statement, t.isQuotable = true := fun t ht => quotable t (part t ht)
  cases stated with
  | nothing => exact h
  | library directive block first hn hs =>
    exact h.library block first hs fun t ht =>
      quotable t (List.mem_cons_of_mem _ (List.mem_cons_of_mem _ ht))
  | script directive block hn hk new named =>
    refine h.script block hk new ?_
    rcases named with ⟨-, rfl⟩ | rfl
    · decide
    · exact List.all_eq_true.mp (quotable (.string _) (by simp))
  | property directive block hd =>
    have words := words_of_declaredNames hd fun t ht => found t (List.mem_cons_of_mem _ ht)
    rw [block] at placed
    have isProperty : ["property", "properties"].contains (Text.asciiLower ‹String›) = true := by
      rcases directive with directive | directive <;> rw [directive] <;> decide
    dsimp only at placed
    rw [isProperty] at placed
    exact h.property block (Array.isEmpty_iff.mp placed) words
  | handler directive block hd =>
    exact h.handler block
      (words_of_declaredNames hd fun t ht => found t (List.mem_cons_of_mem _ ht))
  | locals directive block hd =>
    have words := words_of_declaredNames hd fun t ht => found t (List.mem_cons_of_mem _ ht)
    rw [block] at placed
    have isLocal : ["local", "locals"].contains (Text.asciiLower ‹String›) = true := by
      rcases directive with directive | directive <;> rw [directive] <;> decide
    dsimp only at placed
    rw [Bool.and_eq_true, isLocal] at placed
    exact h.locals block (Array.isEmpty_iff.mp placed.1) words
  | endHandler directive block hc => exact h.endHandler block hc
  | endScript directive block => exact h.endScript block
  | «instruction» block hop takes ho =>
    rw [block] at placed
    dsimp only at placed
    rw [Bool.and_eq_true, hop] at placed
    obtain ⟨library, script, -⟩ := operand_keep ho
    have styled := operand_styled ho placed.2 (found _ (by simp)) (quotable _ (by simp))
      (ofMnemonic?_ne_invalid hop) takes
    rw [library]
    exact h.push block styled (congrArg OpenScript.script script)
  | plain block hop takes =>
    have writable : Pending.Writable a.library.slotScale ⟨line, _, .absent⟩ :=
      ⟨ofMnemonic?_ne_invalid hop, takes⟩
    obtain ⟨noName, -, -, noCons, -⟩ := plain_of_takes takes
    refine h.push block (.silent writable ?_ ?_) rfl
    · exact if_neg (by rw [noName]; exact Bool.false_ne_true)
    · exact if_neg (by simpa using noCons)

/-- A line in the style of listings leads from what can be listed to what can be
listed. -/
theorem feed_tidy {a' : Assembly} {text : List Char} (h : a.Tidy)
    (accepted : a.feed line text = .ok a') (styled : Style.line a line (lineTokens text) = true) :
    a'.Tidy := by
  obtain ⟨tokens, ht, a₁, labelled, stated⟩ := feed_cases accepted
  have same : lineTokens text = tokens := by rw [lineTokens, ht]
  rw [same] at styled
  have found := Token.found_of_tokenize ht
  generalize labelOf tokens = label at labelled
  cases labelled with
  | unlabelled => exact stated.tidy h styled found
  | label block new =>
    refine stated.tidy (h.label block _) ?_ found
    rw [Style.line, block] at styled
    rw [Style.line]
    generalize statementOf tokens = statement at styled ⊢
    -- the style of a statement does not depend on the labels before it
    cases statement with
    | nil => exact styled
    | cons first rest => cases first <;> exact styled

theorem feedAll_tidy {texts : List (List Char)} {a' : Assembly} (h : a.Tidy)
    (accepted : feedAll line a texts = .ok a') (styled : Style.lines line a texts = true) :
    a'.Tidy := by
  induction texts generalizing line a with
  | nil =>
    cases accepted
    exact h
  | cons text texts ih =>
    rw [feedAll] at accepted
    obtain ⟨a₁, first, rest⟩ := bind_eq_ok.mp accepted
    rw [Style.lines, first, Bool.and_eq_true] at styled
    exact ih (feed_tidy h first styled.1) rest styled.2

end Assembly

/-- A text in the style of listings is assembled to a library that can be
listed. -/
theorem listable_of_assemble {text : String} {lib : Library} (accepted : assemble text = .ok lib)
    (styled : inListingStyle text = true) : lib.Listable := by
  obtain ⟨a, lines, finished⟩ := bind_eq_ok.mp accepted
  have tidy := Assembly.feedAll_tidy .start lines styled
  unfold Assembly.finish at finished
  split at finished
  · rename_i block
    cases finished
    have uses := tidy.uses
    have members := tidy.members
    rw [block] at uses members
    simp only [Block.nameIds, Block.members, List.append_nil] at uses members
    exact ⟨tidy.name, tidy.distinct, tidy.names, uses, members, tidy.scripts⟩
  · cases finished
  · cases finished

/-- The library of an accepted text in the style of listings is assembled again
from its listing, if the texts of its floats stand for these floats. -/
theorem listing_round_trip {text : String} {lib : Library} (accepted : assemble text = .ok lib)
    (styled : inListingStyle text = true) (bounded : lib.Bounded)
    (floats : lib.FloatsReadBack) : assemble (listing lib) = .ok lib :=
  Relisting.assemble_listing (listable_of_assemble accepted styled) bounded floats

/-- A handler with a parameter, a literal, a name and a loop. -/
def ballText : String :=
  "script 1 parent \"Ball\"\nproperty speed\nhandler bounce dx\n@top: GET_PARAM dx\n" ++
  "PUSH_CONS 0.5\nEXT_CALL #put\nEND_REPEAT @top\nend\nend\n"

def ballHandler : Handler where
  nameId := 1
  vectorPos := 0
  params := [2]
  code := #[⟨0, .getParam, 0x4B, 0⟩, ⟨2, .pushCons, 0x44, 0⟩, ⟨4, .extCall, 0x57, 3⟩,
    ⟨6, .endRepeat, 0x54, 6⟩]

def ballLibrary : Library where
  names := ⟨#["speed", "bounce", "dx", "put"]⟩
  scripts := #[{
    member := 1
    kind := .parent
    name := "Ball"
    properties := [0]
    literals := #[.float ⟨0x3FE0000000000000⟩]
    handlers := #[ballHandler] }]

theorem assemble_ballText : assemble ballText = .ok ballLibrary :=
  ok_of_toOption (by decide +kernel)

theorem ballLibrary_bounded : ballLibrary.Bounded := by
  refine ⟨by decide, fun s hs => ?_, fun s hs h hh => ?_⟩
  · cases Array.mem_singleton.mp hs
    decide
  · cases Array.mem_singleton.mp hs
    cases Array.mem_singleton.mp hh
    decide

theorem ballLibrary_floats : ballLibrary.FloatsReadBack := by
  refine ⟨fun s hs x hx => ?_, fun s hs h hh i hi pushFloat => ?_⟩
  · cases Array.mem_singleton.mp hs
    cases Array.mem_singleton.mp hx
    decide +kernel
  · cases Array.mem_singleton.mp hs
    cases Array.mem_singleton.mp hh
    have none : ∀ i ∈ ballHandler.code, i.opcode ≠ .pushFloat32 := by decide
    exact absurd pushFloat (none i hi)

theorem listing_round_trip_ball : assemble (listing ballLibrary) = .ok ballLibrary :=
  listing_round_trip assemble_ballText (by decide +kernel) ballLibrary_bounded ballLibrary_floats

end Lingo
