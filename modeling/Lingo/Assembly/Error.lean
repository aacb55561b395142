/-!
# Assembly errors

Why an assembly text is refused, and at which line.
-/

namespace Lingo

/-- What is wrong with a line. -/
inductive AsmFault where
  /-- No operation has this mnemonic. -/
  | unknownOpcode (word : String)
  /-- An operation or directive lacks its argument. -/
  | missingArgument (word : String)
  /-- An operation without argument was given one. -/
  | unexpectedArgument (mnemonic : String)
  /-- A number that cannot be read or does not fit. -/
  | invalidNumber (token : String)
  /-- A token that may not stand here. -/
  | unexpectedToken (token : String)
  | unterminatedString
  | unknownScriptKind (word : String)
  /-- A directive, label or instruction outside its block. -/
  | misplaced (token : String)
  /-- A block that is still open at the end of the text. -/
  | unclosedBlock (block : String)
  | duplicateLabel (label : String)
  | undefinedLabel (label : String)
  | duplicateScript (member : Int32)
  /-- A variable that the handler does not declare. -/
  | unknownVariable (name : String)
  deriving DecidableEq, Repr

def AsmFault.message : AsmFault → String
  | unknownOpcode word => "unknown opcode '" ++ word ++ "'"
  | missingArgument word => word ++ " expects an argument"
  | unexpectedArgument mnemonic => mnemonic ++ " takes no argument"
  | invalidNumber token => "invalid number '" ++ token ++ "'"
  | unexpectedToken token => "unexpected token '" ++ token ++ "'"
  | unterminatedString => "unterminated string"
  | unknownScriptKind word => "unknown script kind '" ++ word ++ "'"
  | misplaced token => "'" ++ token ++ "' is not allowed here"
  | unclosedBlock block => "missing 'end' for " ++ block
  | duplicateLabel label => "label @" ++ label ++ " is defined twice"
  | undefinedLabel label => "undefined label @" ++ label
  | duplicateScript member => s!"script member {member.toInt} is defined twice"
  | unknownVariable name => "no argument or local named '" ++ name ++ "'"

/-- A fault and the line it was found in, counted from 1. -/
structure AsmError where
  line : Nat
  fault : AsmFault
  deriving DecidableEq, Repr

def AsmError.message (e : AsmError) : String :=
  s!"line {e.line}: " ++ e.fault.message

end Lingo
