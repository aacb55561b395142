import Lingo.Assembly.Layout
import Lingo.Assembly.Token

/-!
# Assembling

An assembly text is read line by line. `library`, `script`, `property`,
`handler`, `local` and `end` are directives; every other line within a handler
is a label, an instruction, or both. A handler is laid out when its `end` is
read. The first fault ends the assembly.
-/

namespace Lingo

open Number

/-- A handler whose `end` is still to come. -/
structure OpenHandler where
  /-- Line of its `handler` directive. -/
  line : Nat
  name : String
  nameId : Int32
  params : List String
  locals : List String := []
  body : Array Pending := #[]
  labels : Labels := []
  deriving DecidableEq, Repr

/-- A script whose `end` is still to come. -/
structure OpenScript where
  /-- Line of its `script` directive. -/
  line : Nat
  script : Script
  deriving DecidableEq, Repr

/-- The block that the next line belongs to. -/
inductive Block where
  | top
  | script (s : OpenScript)
  | handler (s : OpenScript) (h : OpenHandler)
  deriving DecidableEq, Repr

/-- What has been read so far. -/
structure Assembly where
  library : Library := {}
  block : Block := .top
  deriving DecidableEq, Repr

/-- Results of assembly steps. -/
abbrev AsmResult (α : Type) := Except AsmError α

namespace Assembly

def fail {α : Type} (line : Nat) (fault : AsmFault) : AsmResult α :=
  .error ⟨line, fault⟩

def unexpected {α : Type} (line : Nat) (token : Token) : AsmResult α :=
  fail line (.unexpectedToken token.text)

/-- A 32-bit integer; what fits without a sign only wraps. -/
def intOperand (line : Nat) : Token → AsmResult Int32
  | .int n =>
    if Int32.minValue.toInt ≤ n && n < UInt32.size then .ok (Int32.ofInt n)
    else fail line (.invalidNumber (toString n))
  | token => unexpected line token

/-- Names that a directive declares. -/
def declaredNames (line : Nat) (tokens : List Token) : AsmResult (List String) :=
  tokens.mapM fun
    | .word name => .ok name
    | token => unexpected line token

/-! ## Directives -/

/-- One setting of a `library` line. -/
def librarySetting (line : Nat) (lib : Library) : Token → AsmResult Library
  | .string name => .ok { lib with name }
  | token@(.setting key value) =>
    if Text.sameName key "version" then
      match readBounded 32 value.toList with
      | some version => .ok { lib with version := version.toUInt32 }
      | none => fail line (.invalidNumber value)
    else unexpected line token
  | token@(.word flag) =>
    if Text.sameName flag "capitalx" then .ok { lib with capitalX := true }
    else unexpected line token
  | token => unexpected line token

/-- `library number ["name"] [version=n] [capitalx]`, before all scripts. -/
def libraryDirective (a : Assembly) (line : Nat) (args : List Token) : AsmResult Assembly :=
  if a.block != .top || !a.library.scripts.isEmpty then fail line (.misplaced "library")
  else
    match args with
    | [] => fail line (.missingArgument "library")
    | number :: settings => do
      let number ← intOperand line number
      let library ← settings.foldlM (librarySetting line) { a.library with number }
      return { a with library }

/-- `script member kind ["name"]`, outside of scripts. -/
def scriptDirective (a : Assembly) (line : Nat) (args : List Token) : AsmResult Assembly :=
  if a.block != .top then fail line (.misplaced "script")
  else
    match args with
    | member :: kind :: rest => do
      let member ← intOperand line member
      let kind ←
        match kind with
        | .word word =>
          match ScriptKind.ofName? word with
          | some kind => .ok kind
          | none => fail line (.unknownScriptKind word)
        | token => unexpected line token
      if (a.library.scriptAt? member).isSome then fail line (.duplicateScript member)
      else
        let name ←
          match rest with
          | [] => .ok ""
          | [.string name] => .ok name
          | token :: _ => unexpected line token
        return { a with block := .script ⟨line, { member, kind, name }⟩ }
    | _ => fail line (.missingArgument "script")

/-- `property name …`, in a script outside of handlers. -/
def propertyDirective (a : Assembly) (line : Nat) (args : List Token) : AsmResult Assembly :=
  match a.block with
  | .script s => do
    let (ids, names) := a.library.names.internAll (← declaredNames line args)
    let script := { s.script with properties := s.script.properties ++ ids }
    return { library := { a.library with names }, block := .script { s with script } }
  | _ => fail line (.misplaced "property")

/-- `handler name [parameter …]`, in a script outside of handlers. -/
def handlerDirective (a : Assembly) (line : Nat) (args : List Token) : AsmResult Assembly :=
  match a.block with
  | .script s => do
    match ← declaredNames line args with
    | [] => fail line (.missingArgument "handler")
    | name :: params =>
      let (nameId, names) := a.library.names.intern name
      let (_, names) := names.internAll params
      return { library := { a.library with names },
               block := .handler s { line, name, nameId, params } }
  | _ => fail line (.misplaced "handler")

/-- `local name …`, in a handler. -/
def localDirective (a : Assembly) (line : Nat) (args : List Token) : AsmResult Assembly :=
  match a.block with
  | .handler s h => do
    let declared ← declaredNames line args
    let (_, names) := a.library.names.internAll declared
    return { library := { a.library with names },
             block := .handler s { h with locals := h.locals ++ declared } }
  | _ => fail line (.misplaced "local")

/-- The finished handler, at its position in the script. -/
def buildHandler (names : Names) (h : OpenHandler) (position : Nat) : AsmResult Handler := do
  let code ← layout h.body.toList h.labels
  return {
    nameId := h.nameId
    vectorPos := Int32.ofNat position
    params := h.params.filterMap names.find?
    locals := h.locals.filterMap names.find?
    code := code.toArray }

/-- `end` of a handler or a script. -/
def endDirective (a : Assembly) (line : Nat) (args : List Token) : AsmResult Assembly :=
  match args with
  | extra :: _ => unexpected line extra
  | [] =>
    match a.block with
    | .handler s h => do
      let handler ← buildHandler a.library.names h s.script.handlers.size
      let script := { s.script with handlers := s.script.handlers.push handler }
      return { a with block := .script { s with script } }
    | .script s =>
      .ok { library := { a.library with scripts := a.library.scripts.push s.script },
            block := .top }
    | .top => fail line (.misplaced "end")

/-- `@label:`, before the instruction that follows it. -/
def defineLabel (a : Assembly) (line : Nat) (label : String) : AsmResult Assembly :=
  match a.block with
  | .handler s h =>
    if (h.labels.lookup label).isSome then fail line (.duplicateLabel label)
    else
      .ok { a with block := .handler s { h with labels := h.labels ++ [(label, h.body.size)] } }
  | _ => fail line (.misplaced ("@" ++ label ++ ":"))

/-! ## Instructions -/

/-- The number of a literal in a table, to whose end it is added if it is new. -/
def internLiteral (literals : Array Literal) (literal : Literal) : Int32 × Array Literal :=
  match literals.findIdx? (·.same literal) with
  | some i => (Int32.ofNat i, literals)
  | none => (Int32.ofNat literals.size, literals.push literal)

/-- The slot of a variable, by number or by declared name. -/
def variableSlot (line : Nat) (h : OpenHandler) (op : Opcode) : Token → AsmResult Int32
  | .word name =>
    let declared :=
      match op with
      | .getParam | .setParam => h.params
      | _ => h.locals
    match declared.findIdx? (Text.sameName · name) with
    | some i => .ok (Int32.ofNat i)
    | none => fail line (.unknownVariable name)
  | token => intOperand line token

/-- The literal that the operand of a constant push spells. -/
def literalOperand? (line : Nat) : Token → Option (AsmResult Literal)
  | .string s => some (.ok (.text s))
  | .float x => some (.ok (.float x))
  | token@(.int _) => some ((intOperand line token).map Literal.int)
  | _ => none

/-- The bits of the single that the operand of a short float push spells. -/
def singleOperand? : Token → Option Single
  | .float x => some (.ofDouble x)
  | .int n => some (.ofInt n)
  | _ => none

/-- Reads an operand, adding names and literals to their tables. -/
def operand (lib : Library) (s : OpenScript) (h : OpenHandler) (line : Nat) (op : Opcode) :
    Token → AsmResult (Operand × Library × OpenScript)
  | .label name => .ok (.label name, lib, s)
  | .symbol name =>
    let (id, names) := lib.names.intern name
    .ok (.value id, { lib with names }, s)
  | token =>
    match op with
    | .pushCons =>
      match literalOperand? line token with
      | some literal => do
        let (id, literals) := internLiteral s.script.literals (← literal)
        return (.value id, lib, { s with script := { s.script with literals } })
      | none => unexpected line token
    | .pushFloat32 =>
      match singleOperand? token with
      | some x => .ok (.value x.bits.toInt32, lib, s)
      | none => unexpected line token
    | .getParam | .setParam | .getLocal | .setLocal => do
      return (.value ((← variableSlot line h op token) * lib.slotScale), lib, s)
    | _ => do return (.value (← intOperand line token), lib, s)

/-- A line that starts with a mnemonic, in a handler. -/
def instruction (a : Assembly) (line : Nat) (word : String) (args : List Token) :
    AsmResult Assembly :=
  match a.block with
  | .handler s h =>
    match Opcode.ofMnemonic? word with
    | none => fail line (.unknownOpcode word)
    | some op =>
      if op.takesArgument then
        match args with
        | [] => fail line (.missingArgument op.mnemonic)
        | [arg] => do
          let (operand, library, s) ← operand a.library s h line op arg
          return { library, block := .handler s { h with body := h.body.push ⟨line, op, operand⟩ } }
        | _ :: extra :: _ => unexpected line extra
      else if args.isEmpty then
        .ok { a with block := .handler s { h with body := h.body.push ⟨line, op, .absent⟩ } }
      else fail line (.unexpectedArgument op.mnemonic)
  | _ => fail line (.misplaced word)

/-! ## Lines -/

/-- A line from its first token on, labels aside. -/
def statement (a : Assembly) (line : Nat) (first : Token) (rest : List Token) :
    AsmResult Assembly :=
  match first with
  | .word word =>
    match Text.asciiLower word with
    | "library" => a.libraryDirective line rest
    | "script" => a.scriptDirective line rest
    | "property" | "properties" => a.propertyDirective line rest
    | "handler" => a.handlerDirective line rest
    | "local" | "locals" => a.localDirective line rest
    | "end" => a.endDirective line rest
    | _ => a.instruction line word rest
  | token => unexpected line token

/-- Reads one line. -/
def feed (a : Assembly) (line : Nat) (text : List Char) : AsmResult Assembly :=
  match Token.tokenize text with
  | .error fault => fail line fault
  | .ok [] => .ok a
  | .ok (.labelDef label :: rest) => do
    let a ← a.defineLabel line label
    match rest with
    | [] => return a
    | first :: rest => a.statement line first rest
  | .ok (first :: rest) => a.statement line first rest

/-- Reads lines, the first of which has number `line`. -/
def feedAll : Nat → Assembly → List (List Char) → AsmResult Assembly
  | _, a, [] => .ok a
  | line, a, text :: rest => do feedAll (line + 1) (← a.feed line text) rest

/-- The library, once all blocks are closed. -/
def finish (a : Assembly) : AsmResult Library :=
  match a.block with
  | .top => .ok a.library
  | .script s => fail s.line (.unclosedBlock s!"script {s.script.member.toInt}")
  | .handler _ h => fail h.line (.unclosedBlock ("handler " ++ h.name))

end Assembly

/-- Assembles a text into a library. -/
def assemble (text : String) : AsmResult Library := do
  (← Assembly.feedAll 1 {} (textLines text)).finish

end Lingo
