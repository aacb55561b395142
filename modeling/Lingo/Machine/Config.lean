import Lingo.Number.Numeral
import Lingo.Text.Blank

/-!
# Configuration

Limits of a machine and the settings that scripts can see.
-/

namespace Lingo

/-- What `addAt` does with a void element at its position. -/
inductive AddAtPolicy where
  /-- A void element is a placeholder, which the new element replaces. -/
  | replaceVoid
  /-- The new element always moves the others up. -/
  | insertAlways
  deriving DecidableEq, Repr, Inhabited

/-- Settings of a machine. -/
structure Config where
  /-- Most handlers that may be active at once. -/
  maxCallDepth : Nat := 50
  /-- Most instructions that one activation may execute. -/
  stepLimit : Nat := 1000000
  /-- What separates items of a text. -/
  itemDelimiter : Char := ','
  addAtPolicy : AddAtPolicy := .replaceVoid
  deriving DecidableEq, Repr, Inhabited

/-- The step limit that a text asks for: a positive number of at most 64 bits,
blanks around it aside. -/
def readStepLimit (text : String) : Option Nat :=
  (Number.readBounded 64 (Text.trimChars text.toList)).filter (0 < ·)

/-- The default configuration with the step limit of an environment variable. -/
def Config.ofEnvironment (stepLimit? : Option String) : Config :=
  match stepLimit?.bind readStepLimit with
  | some stepLimit => { stepLimit }
  | none => {}

end Lingo
