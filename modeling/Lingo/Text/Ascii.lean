/-!
# ASCII case

Names of handlers, properties and opcodes are compared without regard to the
case of the letters `A` to `Z`; every other character stands for itself.

* `asciiLower` writes a text with those letters in lower case.
* `sameName` is equality after that, and so an equivalence.
-/

namespace Lingo.Text

/-- The text with `A`–`Z` in lower case and every other character kept. -/
def asciiLower (s : String) : String :=
  String.ofList (s.toList.map Char.toLower)

/-- Whether two names differ at most in the case of ASCII letters. -/
def sameName (a b : String) : Bool :=
  asciiLower a == asciiLower b

theorem sameName_iff {a b : String} : sameName a b = true ↔ asciiLower a = asciiLower b := by
  simp [sameName]

theorem sameName_refl (a : String) : sameName a a = true := by
  simp [sameName]

theorem sameName_comm (a b : String) : sameName a b = sameName b a := by
  simp [sameName, Bool.beq_comm]

theorem sameName_trans {a b c : String} (hab : sameName a b = true) (hbc : sameName b c = true) :
    sameName a c = true :=
  sameName_iff.2 ((sameName_iff.1 hab).trans (sameName_iff.1 hbc))

end Lingo.Text
