import Lingo.Proofs.Slots

/-!
# Texts of fields

A cast operand and a field operand address a text field, in reads by
`CastLibraries.field?` and in writes by `Step.fieldMember?`. These do not always agree:
for a write, a number is that of a member of one library, and a name may also be that of
a script.

* `CastLibraries.Built.distinct`: no two fields have the same numbers;
* `setFieldText_writes`: a write sets the text of the field with the numbers that the
  operands stand for, if there is one;
* `field_write`: what is read after a write, and when this is what was written;
* `field_write_misses`: writes that do not reach the field that is read.
-/

namespace Lingo

open Machine

namespace Field

variable {f : Field}

/-- The library and the member number of a field. -/
def numbers (f : Field) : Int32 × Int32 :=
  (f.castLib, f.member)

/-- The field, with another text if it has the given numbers. -/
def edited (target? : Option (Int32 × Int32)) (text : String) (f : Field) : Field :=
  if target? = some f.numbers then { f with text } else f

theorem isAt_iff {castLib member : Int32} :
    f.isAt castLib member = true ↔ f.numbers = (castLib, member) := by
  rw [isAt, Bool.and_eq_true, beq_iff_eq, beq_iff_eq, numbers, Prod.mk.injEq]

theorem numbers_edited (target? : Option (Int32 × Int32)) (text : String) (f : Field) :
    (f.edited target? text).numbers = f.numbers := by
  rw [edited]
  split <;> rfl

theorem name_edited (target? : Option (Int32 × Int32)) (text : String) (f : Field) :
    (f.edited target? text).name = f.name := by
  rw [edited]
  split <;> rfl

theorem edited_of_ne {target? : Option (Int32 × Int32)} (h : target? ≠ some f.numbers)
    (text : String) : f.edited target? text = f :=
  if_neg h

end Field

namespace CastLibraries

variable {casts casts' : CastLibraries} {fields : List Field} {castLib member : Int32}

/-! ## Attached libraries -/

/-- Everything that can be attached to a movie. -/
inductive Built : CastLibraries → Prop
  | empty : Built {}
  | library {casts : CastLibraries} (h : Built casts) (library : Library) :
    Built (casts.addLibrary library)
  | field {casts : CastLibraries} (h : Built casts) (field : Field) : Built (casts.setField field)
  | prop {casts casts' : CastLibraries} (h : Built casts) {memory : Memory}
    {castLib member : Int32} {prop : String} {value : Value}
    (set : casts.setMemberProp? memory castLib member prop value = some casts') : Built casts'

/-- No two of the fields have the same numbers. -/
def Distinct (fields : List Field) : Prop :=
  (fields.map Field.numbers).Nodup

theorem map_edited_of_not_mem {target? : Option (Int32 × Int32)}
    (h : ∀ f ∈ fields, target? ≠ some f.numbers) (text : String) :
    fields.map (Field.edited target? text) = fields :=
  (List.map_congr_left fun f hf => Field.edited_of_ne (h f hf) text).trans (List.map_id fields)

/-- The text of one field is set, the others stay. -/
theorem setText_eq_map (distinct : Distinct fields) (castLib member : Int32) (text : String) :
    setText castLib member text fields =
      fields.map (Field.edited (some (castLib, member)) text) := by
  induction fields with
  | nil => rfl
  | cons f rest ih =>
    obtain ⟨first, later⟩ := List.nodup_cons.mp distinct
    rw [setText, List.map_cons]
    split
    · rename_i at_f
      have is := Field.isAt_iff.mp at_f
      have others : ∀ g ∈ rest, some (castLib, member) ≠ some g.numbers := by
        intro g hg same
        rw [← is, Option.some.injEq] at same
        exact first (same ▸ List.mem_map_of_mem hg)
      rw [map_edited_of_not_mem others, Field.edited, if_pos (congrArg some is.symm)]
    · rename_i not_f
      have is_not : some (castLib, member) ≠ some f.numbers := fun same =>
        not_f (Field.isAt_iff.mpr (Option.some.inj same).symm)
      rw [ih later, Field.edited_of_ne is_not]

theorem fieldAt?_isSome_iff : (casts.fieldAt? castLib member).isSome ↔
    ∃ f ∈ casts.fields, f.numbers = (castLib, member) := by
  simp only [fieldAt?, List.find?_isSome, Field.isAt_iff]

theorem numbers_of_fieldAt? {f : Field} (h : casts.fieldAt? castLib member = some f) :
    f.numbers = (castLib, member) := by
  rw [fieldAt?] at h
  have at_f := List.find?_some h
  exact Field.isAt_iff.mp at_f

/-- Setting the text of a member sets that of the field with its numbers. If there is no
such field, no field changes. -/
theorem setMemberProp?_text (distinct : Distinct casts.fields) (memory : Memory)
    (castLib member : Int32) (value : Value) :
    let casts' := (casts.setMemberProp? memory castLib member "text" value).getD casts
    casts'.libraries = casts.libraries ∧
    casts'.fields =
      casts.fields.map (Field.edited (some (castLib, member)) (memory.text value)) ∧
    ((∃ f ∈ casts.fields, f.numbers = (castLib, member)) →
      casts'.memberProps = casts.memberProps) := by
  rw [← fieldAt?_isSome_iff]
  unfold setMemberProp?
  dsimp only
  cases found : casts.fieldAt? castLib member with
  | some f =>
    rw [Option.isNone_some, Bool.and_false, if_neg Bool.false_ne_true, Option.isSome_some,
      if_pos (by decide)]
    exact ⟨rfl, setText_eq_map distinct castLib member (memory.text value), fun _ => rfl⟩
  | none =>
    have absent : ¬ ∃ f ∈ casts.fields, f.numbers = (castLib, member) := by
      rw [← fieldAt?_isSome_iff, found]
      exact Bool.false_ne_true
    rw [map_edited_of_not_mem fun f hf eq => absent ⟨f, hf, (Option.some.inj eq).symm⟩,
      Option.isSome_none, Bool.and_false, if_neg Bool.false_ne_true]
    split <;> exact ⟨rfl, rfl, fun there => absurd there Bool.false_ne_true⟩

theorem setMemberProp?_numbers {memory : Memory} {prop : String} {value : Value}
    (h : casts.setMemberProp? memory castLib member prop value = some casts') :
    casts'.fields.map Field.numbers = casts.fields.map Field.numbers := by
  have texts (text : String) (fields : List Field) :
      (setText castLib member text fields).map Field.numbers = fields.map Field.numbers := by
    induction fields with
    | nil => rfl
    | cons f rest ih =>
      rw [setText]
      split
      · rfl
      · rw [List.map_cons, List.map_cons, ih]
  unfold setMemberProp? at h
  dsimp only at h
  split at h
  · cases h
  · split at h
    · obtain rfl := Option.some.inj h
      exact texts _ _
    · obtain rfl := Option.some.inj h
      rfl

theorem Built.distinct (h : casts.Built) : Distinct casts.fields := by
  induction h with
  | empty => exact List.nodup_nil
  | library _ _ ih => exact ih
  | @field casts _ field ih =>
    rw [Distinct, setField, List.map_append, List.nodup_append]
    refine ⟨ih.sublist (List.filter_sublist.map _), List.nodup_singleton _, ?_⟩
    intro numbers hf numbers' hg same
    obtain ⟨f, hf', rfl⟩ := List.mem_map.mp hf
    rw [List.map_singleton, List.mem_singleton] at hg
    have kept := (List.mem_filter.mp hf').2
    rw [Field.isAt_iff.mpr (same.trans hg)] at kept
    cases kept
  | prop _ set ih =>
    rw [Distinct, setMemberProp?_numbers set]
    exact ih

/-! ## Which field is found -/

/-- Which field two operands address for reading does not depend on the texts. -/
theorem field?_map (edit : Field → Field) (numbers : ∀ f, (edit f).numbers = f.numbers)
    (name : ∀ f, (edit f).name = f.name) (libraries : casts'.libraries = casts.libraries)
    (fields : casts'.fields = casts.fields.map edit) (cast field : Value) :
    casts'.field? cast field = (casts.field? cast field).map edit := by
  have lib (f : Field) : (edit f).castLib = f.castLib := congrArg Prod.fst (numbers f)
  have mem (f : Field) : (edit f).member = f.member := congrArg Prod.snd (numbers f)
  have named (name : String) : casts'.numberNamed name = casts.numberNamed name := by
    rw [numberNamed, libraries, numberNamed]
  unfold field? fieldAt?
  simp only [fields, named, List.find?_map, Function.comp_def, Field.isAt, lib, mem, name]
  cases field <;> rfl

theorem mem_of_field? {cast field : Value} {f : Field} (found : casts.field? cast field = some f) :
    f ∈ casts.fields := by
  unfold field? fieldAt? at found
  cases field <;> exact List.mem_of_find?_eq_some found

/-- The number of the library that a cast operand stands for in a write, or one below 1
when it stands for none. -/
def libraryNumber (casts : CastLibraries) : Value → Int32
  | .int n | .castLib n => n
  | .text name => casts.numberNamed name
  | _ => 0

/-- A write with these operands reaches the field: by its own reference, as the member that a
name stands for, or by its number in the library that is meant, which is the first one if
none is. -/
def Reaches (casts : CastLibraries) (cast field : Value) (f : Field) : Prop :=
  match field with
  | .member castLib member => f.numbers = (castLib, member)
  | .text name => casts.memberNamed (casts.libraryNumber cast) name = .member f.castLib f.member
  | v => f.castLib.toInt = max 1 (casts.libraryNumber cast).toInt ∧ f.member = v.toInt32

theorem fieldMember?_eq (casts : CastLibraries) (cast field : Value) :
    Step.fieldMember? casts cast field =
      match field with
      | .member castLib member => some (castLib, member)
      | .text name =>
        match casts.memberNamed (casts.libraryNumber cast) name with
        | .member castLib member => some (castLib, member)
        | _ => none
      | v =>
        some (if (casts.libraryNumber cast).toInt < 1 then 1 else casts.libraryNumber cast,
          v.toInt32) := by
  cases cast <;> rfl

theorem numbers_eq_iff {n member : Int32} {f : Field} :
    some (if n.toInt < 1 then 1 else n, member) = some f.numbers ↔
      f.castLib.toInt = max 1 n.toInt ∧ f.member = member := by
  have one : (1 : Int32).toInt = 1 := by decide
  have library : (if n.toInt < 1 then 1 else n : Int32).toInt = max 1 n.toInt := by
    split
    · omega
    · omega
  rw [Option.some.injEq, Field.numbers, Prod.mk.injEq, ← library, Int32.toInt_inj]
  exact and_congr eq_comm eq_comm

theorem reaches_iff {cast field : Value} {f : Field} :
    casts.Reaches cast field f ↔ Step.fieldMember? casts cast field = some f.numbers := by
  rw [fieldMember?_eq]
  cases field with
  | member castLib member =>
    show f.numbers = (castLib, member) ↔ some (castLib, member) = some f.numbers
    rw [Option.some.injEq, eq_comm]
  | text name =>
    show casts.memberNamed (casts.libraryNumber cast) name = .member f.castLib f.member ↔ _
    dsimp only
    cases casts.memberNamed (casts.libraryNumber cast) name with
    | member castLib member =>
      rw [Value.member.injEq, Option.some.injEq, Field.numbers, Prod.mk.injEq]
    | _ => exact iff_of_false nofun nofun
  | _ => exact numbers_eq_iff.symm

/-- The operands say which library is meant, and no script in it has the name. -/
def Definite (casts : CastLibraries) (cast field : Value) : Prop :=
  0 < (casts.libraryNumber cast).toInt ∧
    ∀ name, field = .text name → ∀ lib ∈ casts.libraries,
      lib.number = casts.libraryNumber cast → lib.scriptNamed? name = none

theorem memberNamed_of_no_script {n : Int32} {name : String}
    (none : ∀ lib ∈ casts.libraries, lib.number = n → lib.scriptNamed? name = none) (ne : n ≠ 0) :
    casts.memberNamed n name =
      ((casts.fields.find? fun f => n == f.castLib && Text.sameName f.name name).map fun f =>
        Value.member f.castLib f.member).getD .void := by
  have scope (number : Int32) : covers n number = (n == number) := by
    rw [covers, beq_false_of_ne ne, Bool.false_or]
  have scripts : ((casts.libraries.filter fun lib => covers n lib.number).findSome? fun lib =>
      (lib.scriptNamed? name).map fun s => Value.member lib.number s.member) = Option.none := by
    refine List.findSome?_eq_none_iff.mpr fun lib hl => ?_
    obtain ⟨hl, covered⟩ := List.mem_filter.mp hl
    rw [scope, beq_iff_eq] at covered
    rw [none lib hl covered.symm, Option.map_none]
  unfold memberNamed
  dsimp only
  rw [scripts]
  simp only [scope]
  rfl

theorem field?_of_positive {cast : Value} (positive : 0 < (casts.libraryNumber cast).toInt)
    (field : Value) :
    casts.field? cast field =
      match field with
      | .text name => casts.fields.find? fun f =>
        casts.libraryNumber cast == f.castLib && Text.sameName f.name name
      | .member castLib member => casts.fieldAt? castLib member
      | v => casts.fields.find? fun f =>
        casts.libraryNumber cast == f.castLib && f.member == v.toInt32 := by
  cases cast with
  | int n =>
    replace positive : 0 < n.toInt := positive
    unfold field?
    dsimp only
    rw [if_pos positive]
    rfl
  | castLib n => rfl
  | text name => rfl
  | _ => exact absurd (show 0 < (0 : Int32).toInt from positive) (by decide)

theorem Definite.reaches {cast field : Value} {f : Field} (definite : casts.Definite cast field)
    (found : casts.field? cast field = some f) : casts.Reaches cast field f := by
  obtain ⟨positive, scripts⟩ := definite
  rw [field?_of_positive positive] at found
  unfold Reaches
  generalize casts.libraryNumber cast = n at positive scripts found ⊢
  have ne : n ≠ 0 := by
    rintro rfl
    exact absurd positive (by decide)
  have numbered {member : Int32}
      (h : (casts.fields.find? fun f => n == f.castLib && f.member == member) = some f) :
      f.castLib.toInt = max 1 n.toInt ∧ f.member = member := by
    have at_f := List.find?_some h
    rw [Bool.and_eq_true, beq_iff_eq, beq_iff_eq] at at_f
    rw [← at_f.1]
    exact ⟨(max_eq_right positive).symm, at_f.2⟩
  cases field with
  | member castLib member => exact numbers_of_fieldAt? found
  | text name =>
    dsimp only at found ⊢
    rw [memberNamed_of_no_script (scripts name rfl) ne, found]
    rfl
  | _ => exact numbered found

end CastLibraries

/-! ## Writes -/

section

variable {m : Machine} {casts : CastLibraries} {cast field value : Value} {f : Field}

theorem setFieldText_casts (attached : m.casts = some casts) :
    (Step.setFieldText cast field value m).2.casts =
      some (((Step.fieldMember? casts cast field).bind fun numbers =>
        casts.setMemberProp? m.memory numbers.1 numbers.2 "text" value).getD casts) := by
  obtain ⟨log, events, told⟩ := noteSet_apply .field (m.memory.text field) value m
  rw [Step.setFieldText, get_bind_apply, update_bind_apply, told, get_bind_apply]
  dsimp only
  rw [attached]
  dsimp only
  cases Step.fieldMember? casts cast field with
  | none => rfl
  | some numbers =>
    dsimp only
    rw [update_bind_apply, setMemberProp, modifyGet_apply]
    dsimp only
    rw [Option.bind_some, Option.bind_some]
    cases casts.setMemberProp? m.memory numbers.1 numbers.2 "text" value <;> rfl

/-- A write sets the text of the field with the numbers that the operands stand for. If
there is no such field, no field changes. -/
theorem setFieldText_writes (attached : m.casts = some casts)
    (distinct : CastLibraries.Distinct casts.fields) (cast field value : Value) :
    ∃ casts', (Step.setFieldText cast field value m).2.casts = some casts' ∧
      casts'.libraries = casts.libraries ∧
      casts'.fields = casts.fields.map
        (Field.edited (Step.fieldMember? casts cast field) (m.memory.text value)) ∧
      ((∃ f ∈ casts.fields, Step.fieldMember? casts cast field = some f.numbers) →
        casts'.memberProps = casts.memberProps) := by
  refine ⟨_, setFieldText_casts attached, ?_⟩
  cases Step.fieldMember? casts cast field with
  | none =>
    rw [CastLibraries.map_edited_of_not_mem fun f _ => (nofun : none ≠ some f.numbers)]
    exact ⟨rfl, rfl, fun _ => rfl⟩
  | some numbers =>
    obtain ⟨libraries, fields, memberProps⟩ :=
      CastLibraries.setMemberProp?_text distinct m.memory numbers.1 numbers.2 value
    refine ⟨libraries, fields, fun ⟨f, hf, is⟩ => memberProps ⟨f, hf, ?_⟩⟩
    exact (Option.some.inj is).symm

/-- After a write, the same operands still find the same field for reading. If they reach
it for writing, its text is what was written, and that is the only change; if not, its
text is the one that it had. They reach it when they say which library is meant, unless a
script there has the name of the field. -/
theorem field_write (attached : m.casts = some casts) (built : casts.Built)
    (found : casts.field? cast field = some f) :
    ∃ casts', (Step.setFieldText cast field value m).2.casts = some casts' ∧
      (casts.Reaches cast field f →
        casts'.fieldText? cast field = some (m.memory.text value) ∧
        casts' = { casts with fields := casts.fields.map fun g =>
          if g = f then { g with text := m.memory.text value } else g }) ∧
      (¬ casts.Reaches cast field f → casts'.fieldText? cast field = some f.text) ∧
      (casts.Definite cast field → casts.Reaches cast field f) := by
  obtain ⟨casts', written, libraries, fields, memberProps⟩ :=
    setFieldText_writes attached built.distinct cast field value
  have found' := (CastLibraries.field?_map _ (Field.numbers_edited _ _) (Field.name_edited _ _)
    libraries fields cast field).trans (congrArg (Option.map _) found)
  rw [Option.map_some] at found'
  refine ⟨casts', written, fun reached => ?reached, fun missed => ?missed,
    fun definite => definite.reaches found⟩
  case reached =>
    have target := CastLibraries.reaches_iff.mp reached
    have member := CastLibraries.mem_of_field? found
    rw [target] at fields found'
    refine ⟨?read, ?change⟩
    case read =>
      rw [CastLibraries.fieldText?, found', Option.map_some, Field.edited, if_pos rfl]
    case change =>
      have only : casts.fields.map (Field.edited (some f.numbers) (m.memory.text value)) =
          casts.fields.map fun g =>
            if g = f then { g with text := m.memory.text value } else g := by
        refine List.map_congr_left fun g hg => ?_
        have same : some f.numbers = some g.numbers ↔ g = f := by
          rw [Option.some.injEq, eq_comm]
          exact ⟨List.inj_on_of_nodup_map built.distinct hg member, congrArg Field.numbers⟩
        simp only [Field.edited, same]
      rw [← only, ← fields, ← libraries, ← memberProps ⟨f, member, target⟩]
  case missed =>
    have other := mt CastLibraries.reaches_iff.mpr missed
    rw [CastLibraries.fieldText?, found', Field.edited_of_ne other, Option.map_some]

end

/-- Two libraries; a script of the second and a field there have the same name. -/
def statusLibraries : CastLibraries :=
  ((CastLibraries.addLibrary {} { number := 1 }).addLibrary
    { number := 2, scripts := #[{ member := 4, name := "Status", kind := .parent }] }).setField
    ⟨2, 10, "status", "ready"⟩

theorem statusLibraries_built : statusLibraries.Built :=
  .field (.library (.library .empty _) _) _

/-- By its number in its library, the field is reached. -/
theorem field_write_status :
    let m : Machine := { casts := some statusLibraries }
    statusLibraries.Built ∧
    statusLibraries.field? (.int 2) (.int 10) = some ⟨2, 10, "status", "ready"⟩ ∧
    ∃ casts', (Step.setFieldText (.int 2) (.int 10) (.text "done") m).2.casts = some casts' ∧
      casts'.fieldText? (.int 2) (.int 10) = some "done" := by
  intro m
  have found : statusLibraries.field? (.int 2) (.int 10) = some ⟨2, 10, "status", "ready"⟩ := by
    decide +kernel
  have definite : statusLibraries.Definite (.int 2) (.int 10) := ⟨by decide, nofun⟩
  obtain ⟨casts', written, reached, -, reaches⟩ :=
    @field_write m statusLibraries _ _ (.text "done") _ rfl statusLibraries_built found
  exact ⟨statusLibraries_built, found, casts', written, (reached (reaches definite)).1⟩

/-- By its number without a library, the field is read but not written; and by its name, the
script of that name is written to. -/
theorem field_write_misses :
    let m : Machine := { casts := some statusLibraries }
    ∀ operands ∈ [(Value.int 0, Value.int 10), (.int 2, .text "status")],
      statusLibraries.fieldText? operands.1 operands.2 = some "ready" ∧
      (Step.setFieldText operands.1 operands.2 (.text "done") m).2.casts.bind
        (·.fieldText? operands.1 operands.2) = some "ready" := by
  decide +kernel

end Lingo
