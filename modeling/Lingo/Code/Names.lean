import Lingo.Text.Ascii

/-!
# Tables of names

A library numbers the names that its code mentions. Names are compared without
regard to ASCII case, so a table built by `Names.intern` holds no name twice.
-/

namespace Lingo

/-- The names of a library; the number of a name is its position. -/
structure Names where
  entries : Array String := #[]
  deriving DecidableEq, Repr, Inhabited

namespace Names

/-- The name with a number. -/
def get? (names : Names) (id : Int32) : Option String :=
  if id.toInt < 0 then none else names.entries[id.toInt.toNat]?

/-- The name with a number; a number outside the table has a stand-in. -/
def name (names : Names) (id : Int32) : String :=
  (names.get? id).getD s!"<name:{id.toInt}>"

/-- The number of a name. -/
def find? (names : Names) (name : String) : Option Int32 :=
  (names.entries.findIdx? (Text.sameName · name)).map Int32.ofNat

/-- The number of a name, which is added at the end if it is new. -/
def intern (names : Names) (name : String) : Int32 × Names :=
  match names.find? name with
  | some id => (id, names)
  | none => (Int32.ofNat names.entries.size, ⟨names.entries.push name⟩)

/-- Interns names from left to right. -/
def internAll (names : Names) : List String → List Int32 × Names
  | [] => ([], names)
  | name :: rest =>
    let (id, names) := names.intern name
    let (ids, names) := names.internAll rest
    (id :: ids, names)

end Names

end Lingo
