import Lingo.Text.CaseTable

/-!
# Lower case

`lowercase` writes a text in lower case by the full Unicode mapping. Two rules
go beyond the letter-by-letter table: U+0130 becomes an `i` followed by a
combining dot, and a capital sigma becomes the final form `ς` at the end of a
word, that is, when a cased letter precedes it and none follows, marks and
other case-ignorable characters being looked through.
-/

namespace Lingo.Text

/-- The lower-case form of a code point by runs in ascending order. -/
def lowerIn? : List LowerRun → Nat → Option Nat
  | [], _ => none
  | r :: rest, n =>
    if n < r.first then none
    else if n ≤ r.last && (n - r.first) % r.stride == 0 then some (r.lower + (n - r.first))
    else lowerIn? rest n

/-- The lower-case form of one character by the table; a character outside the
table is its own. -/
def lowerChar (c : Char) : Char :=
  if c.toNat < 0x80 then c.toLower
  else
    match lowerIn? lowerRuns c.toNat with
    | some n => Char.ofNat n
    | none => c

/-- Whether the first character that is not case-ignorable has a case. -/
def casedNext (cs : List Char) : Bool :=
  match cs.dropWhile (withinEdges caseIgnorableEdges) with
  | [] => false
  | c :: _ => withinEdges casedEdges c

/-- Lower-cases `cs`, where `before` holds the characters already passed,
nearest first. -/
def lowerFrom : List Char → List Char → List Char
  | _, [] => []
  | before, c :: rest =>
    (if c == 'Σ' then
      [if casedNext before && !casedNext rest then 'ς' else 'σ']
    else if c == 'İ' then ['i', '\u0307']
    else [lowerChar c]) ++ lowerFrom (c :: before) rest

/-- The lower-case form of a text. -/
def lowercase (s : String) : String :=
  String.ofList (lowerFrom [] s.toList)

end Lingo.Text
