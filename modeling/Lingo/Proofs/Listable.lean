import Lingo.Assembly.Listing
import Lingo.Proofs.Interning
import Lingo.Proofs.Landing
import Lingo.Proofs.Quoting

/-!
# Libraries that can be listed

What a library must be like for its listing to be an assembly text of it
(`Library.Listable`): the names and literals are numbered in the order in which
the listing mentions them, the names that it declares are words, quoted texts
can be read back, and the code of each handler is that of a body whose jumps
lead to its own instructions.

Apart from that, a library has to be of a size that its numbers can count
(`Library.Bounded`), and the decimal texts of its floats have to stand for these
floats (`Library.FloatsReadBack`).
-/

namespace Lingo

open Number

/-! ## Mentioned names and literals -/

/-- The number of the name that an instruction mentions. -/
def Instruction.nameId? (i : Instruction) : Option Int32 :=
  if i.opcode.takesName then some i.argument else none

/-- The number of the literal that an instruction mentions. -/
def Instruction.literalId? (i : Instruction) : Option Int32 :=
  if i.opcode = .pushCons then some i.argument else none

/-- The numbers of the names that a handler mentions, as they are listed. -/
def Handler.nameIds (h : Handler) : List Int32 :=
  h.nameId :: (h.params ++ (h.locals ++ h.code.toList.filterMap Instruction.nameId?))

/-- The numbers of the literals that a handler mentions. -/
def Handler.literalIds (h : Handler) : List Int32 :=
  h.code.toList.filterMap Instruction.literalId?

def Script.nameIds (s : Script) : List Int32 :=
  s.properties ++ s.handlers.toList.flatMap Handler.nameIds

def Script.literalIds (s : Script) : List Int32 :=
  s.handlers.toList.flatMap Handler.literalIds

def Library.nameIds (lib : Library) : List Int32 :=
  lib.scripts.toList.flatMap Script.nameIds

/-- A number of a name that is a word. -/
def Names.Declared (names : Names) (id : Int32) : Prop :=
  ∃ i w, id = Int32.ofNat i ∧ names.list[i]? = some w ∧ Token.Word w.toList

/-- A text that is read back when it is quoted. -/
def Quotable (s : String) : Prop :=
  ∀ c ∈ s.toList, Token.printable c = true

instance (s : String) : Decidable (Quotable s) :=
  decidable_of_iff _ List.all_iff_forall_prop

/-- A literal that can be written. -/
def Literal.Writable : Literal → Prop
  | .text s => Quotable s
  | .int _ => True
  | .float x => x.magnitude < double.infinity

/-- A literal that can be written is found again. -/
theorem Literal.Writable.same_self {x : Literal} (h : x.Writable) : x.same x = true := by
  cases x with
  | text s => exact beq_self_eq_true s
  | int n => exact beq_self_eq_true n
  | float x =>
    have number : x.isNaN = false := decide_eq_false (Nat.not_lt_of_lt h)
    simp [same, Double.sameNumber, Double.compare?, number]

/-! ## Code -/

/-- An argument that can be written: jumps, and only they, lead to instructions;
slots are multiples of the scale; and short floats are finite. -/
def Layout.Resolved.Writable (op : Opcode) (size : Nat) (scale : Int32) : Layout.Resolved → Prop
  | .index target => op.isJump = true ∧ target ≤ size
  | .value n =>
    op ≠ .invalid ∧ op.isJump = false ∧ (op.takesArgument = false → n = 0) ∧
      (op.takesSlot = true → n / scale * scale = n) ∧
      (op = .pushFloat32 → (Single.mk n.toUInt32).magnitude < single.infinity)

/-- A body that can be written. -/
def Layout.Writable (items : List Layout.Item) (scale : Int32) : Prop :=
  ∀ item ∈ items, item.2.Writable item.1 items.length scale

/-- Each operation that can be written has a mnemonic. -/
theorem Layout.Resolved.Writable.valid {r : Layout.Resolved} {op : Opcode} {size : Nat}
    {scale : Int32} (h : r.Writable op size scale) : op ≠ .invalid := by
  rintro rfl
  cases r with
  | value n => exact h.1 rfl
  | index target => cases h.1

/-- What operations without an argument are not. -/
theorem plain_of_takes {op : Opcode} (h : op.takesArgument = false) :
    op.takesName = false ∧ op.takesSlot = false ∧ op.isJump = false ∧ op ≠ .pushCons ∧
      op ≠ .pushFloat32 := by
  revert h
  cases op <;> decide

theorem plain_of_isJump {op : Opcode} (h : op.isJump = true) :
    op.takesName = false ∧ op.takesSlot = false ∧ op ≠ .pushCons ∧ op ≠ .pushFloat32 := by
  revert h
  cases op <;> decide

theorem plain_of_takesName {op : Opcode} (h : op.takesName = true) :
    op.takesSlot = false ∧ op ≠ .pushCons ∧ op ≠ .pushFloat32 := by
  revert h
  cases op <;> decide

theorem plain_of_takesSlot {op : Opcode} (h : op.takesSlot = true) :
    op ≠ .pushCons ∧ op ≠ .pushFloat32 := by
  revert h
  cases op <;> decide

theorem takesSlot_eq_false {op : Opcode} (getParam : op ≠ .getParam) (setParam : op ≠ .setParam)
    (getLocal : op ≠ .getLocal) (setLocal : op ≠ .setLocal) : op.takesSlot = false := by
  cases op <;> first | rfl | contradiction

/-! ## Libraries -/

/-- A handler that can be listed at its position in a script. -/
structure Handler.Listable (names : Names) (scale : Int32) (position : Nat) (h : Handler) :
    Prop where
  nameId : names.Declared h.nameId
  params : ∀ id ∈ h.params, names.Declared id
  locals : ∀ id ∈ h.locals, names.Declared id
  vectorPos : h.vectorPos = Int32.ofNat position
  code : ∃ items, h.code = (Layout.laidOut items).toArray ∧ Layout.Writable items scale

/-- A script that can be listed; `pending` are mentions of literals that are to
follow its own. -/
structure Script.Listable (names : Names) (scale : Int32) (pending : List Int32) (s : Script) :
    Prop where
  kind : s.kind ≠ .unknown
  name : Quotable s.name
  properties : ∀ id ∈ s.properties, names.Declared id
  distinct : Distinct Literal.same s.literals.toList
  literals : ∀ x ∈ s.literals, x.Writable
  uses : FirstUse 0 (s.literalIds ++ pending) s.literals.size
  handlers : ∀ j (h : Handler), s.handlers[j]? = some h → h.Listable names scale j

/-- A library whose listing is an assembly text. -/
structure Library.Listable (lib : Library) : Prop where
  name : Quotable lib.name
  distinct : Distinct Text.sameName lib.names.list
  names : ∀ name ∈ lib.names.list, ∀ c ∈ name.toList, Token.endsWord c = false
  uses : FirstUse 0 lib.nameIds lib.names.list.length
  members : (lib.scripts.toList.map Script.member).Nodup
  scripts : ∀ s ∈ lib.scripts, s.Listable lib.names lib.slotScale []

/-- A library within the bounds of 32-bit numbers. -/
structure Library.Bounded (lib : Library) : Prop where
  names : lib.names.entries.size ≤ 2147483648
  literals : ∀ s ∈ lib.scripts, s.literals.size ≤ 2147483648
  code : ∀ s ∈ lib.scripts, ∀ h ∈ s.handlers, h.byteLength < 2147483648

/-- The decimal text of each float literal stands for that double, and that of
each short float, rounded to a single, for that single. -/
structure Library.FloatsReadBack (lib : Library) : Prop where
  double : ∀ s ∈ lib.scripts, ∀ x, .float x ∈ s.literals → readDouble x.text.toList = some x
  single : ∀ s ∈ lib.scripts, ∀ h ∈ s.handlers, ∀ i ∈ h.code, i.opcode = .pushFloat32 →
    (readDouble (Single.mk i.argument.toUInt32).text.toList).map Single.ofDouble =
      some ⟨i.argument.toUInt32⟩

/-! ## Growing tables -/

theorem Names.Declared.grow {names names' : Names} (h : names.list <+: names'.list) {id : Int32}
    (declared : names.Declared id) : names'.Declared id := by
  obtain ⟨i, w, rfl, hw, word⟩ := declared
  obtain ⟨added, grown⟩ := h
  obtain ⟨inside, -⟩ := List.getElem?_eq_some_iff.mp hw
  exact ⟨i, w, rfl, by rw [← grown, List.getElem?_append_left inside, hw], word⟩

theorem Handler.Listable.grow {names names' : Names} (grows : names.list <+: names'.list)
    {scale : Int32} {position : Nat} {h : Handler} (listable : h.Listable names scale position) :
    h.Listable names' scale position where
  nameId := listable.nameId.grow grows
  params := fun id hid => (listable.params id hid).grow grows
  locals := fun id hid => (listable.locals id hid).grow grows
  vectorPos := listable.vectorPos
  code := listable.code

theorem Script.Listable.grow {names names' : Names} (grows : names.list <+: names'.list)
    {scale : Int32} {pending : List Int32} {s : Script}
    (listable : s.Listable names scale pending) : s.Listable names' scale pending where
  kind := listable.kind
  name := listable.name
  properties := fun id hid => (listable.properties id hid).grow grows
  distinct := listable.distinct
  literals := listable.literals
  uses := listable.uses
  handlers := fun j h hj => (listable.handlers j h hj).grow grows

/-! ## Mentions in code -/

namespace Layout

/-- The number that an operation with a number as its argument mentions. -/
def mentioned (mentions : Opcode → Bool) (item : Item) : Option Int32 :=
  match item.2 with
  | .value n => if mentions item.1 then some n else none
  | .index _ => none

/-- Operations that do not jump keep what they mention when they are laid out. -/
theorem filterMap_laidOut (mentions : Opcode → Bool)
    (still : ∀ op, mentions op = true → op.isJump = false) {items : List Item} {scale : Int32}
    (writable : Writable items scale) :
    (laidOut items).filterMap (fun i => if mentions i.opcode then some i.argument else none) =
      items.filterMap (mentioned mentions) := by
  have each : ∀ i item, items[i]? = some item → ∀ sizes : List Nat,
      (if mentions item.1 then some (item.2.argument item.1 sizes i) else none) =
        mentioned mentions item := by
    intro i item hi sizes
    have allowed := writable item (List.mem_of_getElem? hi)
    rcases item with ⟨op, n | target⟩
    · rfl
    · have silent : mentions op ≠ true := fun yes =>
        absurd ((still op yes).symm.trans allowed.1) Bool.false_ne_true
      rw [if_neg silent]
      rfl
  rw [laidOut, placed, List.mapIdx_eq_zipIdx_map, List.filterMap_map]
  have plain : items = items.zipIdx.map Prod.fst := (List.zipIdx_map_fst 0 items).symm
  conv => rhs; rw [plain, List.filterMap_map]
  refine List.filterMap_congr fun p hp => ?_
  exact each p.2 p.1 (List.mem_zipIdx_iff_getElem?.mp hp) _

end Layout

end Lingo
