import Lingo.Code.Library
import Lingo.Memory.Display

/-!
# Cast libraries

The libraries and text fields that are attached to a movie. Handlers are found
as `HandlerSite`s, which keep the library they belong to, because the name and
literal numbers in their code are relative to it.
-/

namespace Lingo

/-- A handler with its script and library. -/
structure HandlerSite where
  library : Library
  script : Script
  index : Nat
  inRange : index < script.handlers.size

namespace HandlerSite

def handler (site : HandlerSite) : Handler :=
  have := site.inRange
  site.script.handlers[site.index]

/-- Name of the handler. -/
def name (site : HandlerSite) : String :=
  site.library.names.name site.handler.nameId

/-- The script that the handler belongs to. -/
def scriptRef (site : HandlerSite) : ScriptRef :=
  ⟨site.library.number, site.script.member⟩

/-- The handler at a position of a script. -/
def at? (library : Library) (script : Script) (index : Nat) : Option HandlerSite :=
  if h : index < script.handlers.size then some ⟨library, script, index, h⟩ else none

/-- The first handler of a script with a name. -/
def find? (library : Library) (script : Script) (name : String) : Option HandlerSite :=
  (script.handlerNamed? library.names name).bind (at? library script)

/-- The first handler of a library with a name. -/
def findInLibrary? (library : Library) (name : String) : Option HandlerSite :=
  library.scripts.findSome? fun script => find? library script name

end HandlerSite

/-- A text field. -/
structure Field where
  castLib : Int32
  member : Int32
  name : String
  text : String
  deriving DecidableEq, Repr, Inhabited

/-- A property of a member, by library, member and name in lower case. -/
structure MemberProp where
  castLib : Int32
  member : Int32
  name : String
  value : Value
  deriving DecidableEq, Repr, Inhabited

/-- The libraries, fields and member properties attached to a movie. -/
structure CastLibraries where
  libraries : List Library := []
  fields : List Field := []
  memberProps : List MemberProp := []
  deriving DecidableEq, Repr, Inhabited

/-- Whether a field has a library and a member number. -/
def Field.isAt (f : Field) (castLib member : Int32) : Bool :=
  f.castLib == castLib && f.member == member

/-- Whether a member property is stored under a key. -/
def MemberProp.isAt (p : MemberProp) (castLib member : Int32) (name : String) : Bool :=
  p.castLib == castLib && p.member == member && p.name == name

namespace CastLibraries

def addLibrary (casts : CastLibraries) (library : Library) : CastLibraries :=
  { casts with libraries := casts.libraries ++ [library] }

/-- Adds a field, in place of one with the same numbers. -/
def setField (casts : CastLibraries) (field : Field) : CastLibraries :=
  { casts with
    fields := casts.fields.filter (fun f => !f.isAt field.castLib field.member) ++ [field] }

/-- The library with a number. -/
def library? (casts : CastLibraries) (number : Int32) : Option Library :=
  casts.libraries.find? (·.number == number)

/-- The script with a library and a member number. -/
def script? (casts : CastLibraries) (castLib member : Int32) : Option Script :=
  (casts.library? castLib).bind (·.scriptAt? member)

/-- The field with a library and a member number. -/
def fieldAt? (casts : CastLibraries) (castLib member : Int32) : Option Field :=
  casts.fields.find? (·.isAt castLib member)

/-! ## Handlers -/

/-- The first handler with a name in all libraries. -/
def findHandler? (casts : CastLibraries) (name : String) : Option HandlerSite :=
  casts.libraries.findSome? (HandlerSite.findInLibrary? · name)

/-- A handler of one script. -/
def findHandlerIn? (casts : CastLibraries) (ref : ScriptRef) (name : String) :
    Option HandlerSite := do
  let library ← casts.library? ref.castLib
  let script ← library.scriptAt? ref.member
  HandlerSite.find? library script name

/-- Names of the properties that a script declares. -/
def scriptProperties (casts : CastLibraries) (ref : ScriptRef) : List String :=
  match casts.library? ref.castLib, casts.script? ref.castLib ref.member with
  | some library, some script => library.propertyNames script
  | _, _ => []

/-! ## Members -/

/-- Whether a request for a library, 0 standing for all, covers one. -/
def covers (castLib number : Int32) : Bool :=
  castLib == 0 || castLib == number

/-- The member with a name, scripts before fields. Library 0 stands for all. -/
def memberNamed (casts : CastLibraries) (castLib : Int32) (name : String) : Value :=
  let script := (casts.libraries.filter fun lib => covers castLib lib.number).findSome? fun lib =>
    (lib.scriptNamed? name).map fun s => Value.member lib.number s.member
  let field := (casts.fields.find? fun f =>
    covers castLib f.castLib && Text.sameName f.name name).map fun f =>
      Value.member f.castLib f.member
  (script <|> field).getD .void

/-- A property of a member: one that was set, else one that scripts and fields
have by themselves. -/
def memberProp (casts : CastLibraries) (castLib member : Int32) (prop : String) : Value :=
  let key := Text.asciiLower prop
  match casts.memberProps.find? (·.isAt castLib member key) with
  | some p => p.value
  | none =>
    match casts.script? castLib member with
    | some script =>
      match key with
      | "name" => .text script.name
      | "type" => .symbol "script"
      | "scripttype" => .symbol script.kind.name
      | "script" => .script ⟨castLib, member⟩
      | _ => .void
    | none =>
      match casts.fieldAt? castLib member with
      | some field =>
        match key with
        | "name" => .text field.name
        | "type" => .symbol "field"
        | "text" => .text field.text
        | _ => .void
      | none => .void

/-- Changes the text of the field with a library and a member number. -/
def setText (castLib member : Int32) (text : String) : List Field → List Field
  | [] => []
  | f :: rest =>
    if f.isAt castLib member then { f with text } :: rest
    else f :: setText castLib member text rest

/-- Sets a property of a member; none if there is no such member. The text of a
field is the field's own, everything else is kept beside it. -/
def setMemberProp? (casts : CastLibraries) (memory : Memory) (castLib member : Int32)
    (prop : String) (value : Value) : Option CastLibraries :=
  let field? := casts.fieldAt? castLib member
  if (casts.script? castLib member).isNone && field?.isNone then none
  else if Text.sameName prop "text" && field?.isSome then
    some { casts with fields := setText castLib member (memory.text value) casts.fields }
  else
    let key := Text.asciiLower prop
    let others := casts.memberProps.filter fun p => !p.isAt castLib member key
    some { casts with memberProps := ⟨castLib, member, key, value⟩ :: others }

/-! ## Libraries -/

/-- A library number if there is such a library, else 0. -/
def numberOf (casts : CastLibraries) (number : Int32) : Int32 :=
  ((casts.library? number).map (·.number)).getD 0

/-- The number of the library with a name, else 0. -/
def numberNamed (casts : CastLibraries) (name : String) : Int32 :=
  ((casts.libraries.find? fun l => Text.sameName l.name name).map (·.number)).getD 0

def libraryProp (casts : CastLibraries) (number : Int32) (prop : String) : Value :=
  match casts.library? number with
  | none => .void
  | some library =>
    match Text.asciiLower prop with
    | "name" => .text library.name
    | "number" => .int library.number
    | "filename" => .text ""
    | _ => .void

/-- Number of scripts and fields of a library. -/
def memberCount (casts : CastLibraries) (castLib : Int32) : Nat :=
  match casts.library? castLib with
  | none => 0
  | some library =>
    library.scripts.size + (casts.fields.filter (·.castLib == castLib)).length

/-! ## Fields -/

/-- The field that a cast operand and a field operand address. -/
def field? (casts : CastLibraries) (cast field : Value) : Option Field :=
  let castLib? :=
    match cast with
    | .int n => if 0 < n.toInt then some n else none
    | .castLib n => some n
    | .text name => some (casts.numberNamed name)
    | _ => none
  let inScope (f : Field) : Bool := castLib?.all (· == f.castLib)
  match field with
  | .text name => casts.fields.find? fun f => inScope f && Text.sameName f.name name
  | .member castLib member => casts.fieldAt? castLib member
  | v => casts.fields.find? fun f => inScope f && f.member == v.toInt32

/-- The text of the field that two operands address. -/
def fieldText? (casts : CastLibraries) (cast field : Value) : Option String :=
  (casts.field? cast field).map (·.text)

end CastLibraries

end Lingo
