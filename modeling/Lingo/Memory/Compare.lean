import Lingo.Memory.Display
import Lingo.Memory.Likeness
import Lingo.Text.Lowercase

/-!
# Comparison of values

* `Memory.equals` is the language's `=`: numbers by value, texts and symbols
  without regard to case, void as zero against a number, a text against a
  number by what it spells, and everything else by structure.
* `Value.compare?` orders values for `<` and its kin.
* `Memory.sortOrder` is the order in which lists are sorted.
-/

namespace Lingo

open Number

namespace Value

/-- The characters of a text or a symbol. -/
def bare : Value → String
  | .text s | .symbol s => s
  | _ => ""

/-- Whether a text spells a number. -/
def spellsNumber : Value → Bool
  | .text s => (readDouble? s).isSome
  | _ => false

/-- Order of two values. Texts and symbols that are not both numeric texts
compare letter by letter without case; everything else compares as numbers. -/
def compare? (a b : Value) : Option Ordering :=
  if a.isTextual && b.isTextual && !(a.spellsNumber && b.spellsNumber) then
    some (compare (Text.lowercase a.bare) (Text.lowercase b.bare))
  else a.toDouble.compare? b.toDouble

end Value

namespace Memory

/-- Whether a text spells a given number. -/
def spells (s : String) (n : Value) : Bool :=
  (Value.readDouble? s).any (·.sameNumber n.toDouble)

/-- Equality as scripts see it. -/
def equals (m : Memory) (a b : Value) : Bool :=
  if a.isVoid && b.isNumber then b.toDouble.isZero
  else if b.isVoid && a.isNumber then a.toDouble.isZero
  else if a.isNumber && b.isNumber then a.toDouble.sameNumber b.toDouble
  else if a.isTextual && b.isTextual then Text.lowercase a.bare == Text.lowercase b.bare
  else
    match a, b with
    | .text s, b => if b.isNumber then spells s b else m.same a b
    | a, .text s => if a.isNumber then spells s a else m.same a b
    | a, b => m.same a b

/-- Order in which lists are sorted: numbers by value, anything else by its text
in lower case. -/
def sortOrder (m : Memory) (a b : Value) : Ordering :=
  match a, b with
  | .int x, .int y => compare x.toInt y.toInt
  | a, b =>
    if a.isNumber && b.isNumber then a.toDouble.totalCompare b.toDouble
    else compare (Text.lowercase (m.text a)) (Text.lowercase (m.text b))

end Memory

end Lingo
