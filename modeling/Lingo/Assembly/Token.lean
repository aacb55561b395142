import Lingo.Assembly.Error
import Lingo.Number.Numeral
import Lingo.Number.Shortest
import Lingo.Text.Blank
import Lingo.Text.Quoted

/-!
# Tokens of assembly text

A line consists of words and quoted strings, separated by blanks and commas; a
semicolon outside a string starts a comment. `classify` sorts words by their
first characters, and `tokenize` splits a line.
-/

namespace Lingo

open Number

/-- A token of a line. -/
inductive Token where
  /-- A mnemonic, a directive or a name. -/
  | word (s : String)
  /-- A decimal or hexadecimal integer of at most 64 bits. -/
  | int (n : Int)
  | float (x : Double)
  /-- A string in double quotes. -/
  | string (s : String)
  /-- `#name`. -/
  | symbol (s : String)
  /-- `@name`, the target of a jump. -/
  | label (s : String)
  /-- `@name:`, the place of a label. -/
  | labelDef (s : String)
  /-- `key=value`. -/
  | setting (key value : String)
  deriving DecidableEq, Repr

namespace Token

/-- A token as it appears in error messages. -/
def text : Token → String
  | word s => s
  | int n => toString n
  | float x => x.plainText
  | string s => Text.quote s
  | symbol s => "#" ++ s
  | label s => "@" ++ s
  | labelDef s => "@" ++ s ++ ":"
  | setting key value => key ++ "=" ++ value

/-- Whether a character ends a word: a blank, a comma or a semicolon. -/
def endsWord (c : Char) : Bool :=
  Text.isBlank c || c == ',' || c == ';'

/-- The character that an escape in a string stands for. -/
def unescape (c : Char) : Char :=
  if c == 'n' then '\n' else if c == 'r' then '\r' else if c == 't' then '\t' else c

/-- Reads a string up to its closing quote: the string, given the characters
already read, last first, and what follows the quote. -/
def readString : List Char → List Char → Option (List Char × List Char)
  | _, [] => none
  | done, c :: rest =>
    if c == '"' then some (done.reverse, rest)
    else if c == '\\' then
      match rest with
      | [] => none
      | e :: rest => readString (unescape e :: done) rest
    else readString (c :: done) rest

theorem length_readString {done cs s rest : List Char} (h : readString done cs = some (s, rest)) :
    rest.length < cs.length := by
  fun_induction readString done cs with
  | case1 => simp at h
  | case2 => simp_all
  | case3 => simp at h
  | case4 done c hq hb e rest' ih =>
    have := ih h
    simp
    omega
  | case5 done c rest' hq hb ih =>
    have := ih h
    simp
    omega

/-- The number that a word starting with a digit, or with a minus sign and a
digit, spells. -/
def number (w : List Char) : Except AsmFault Token :=
  let invalid := AsmFault.invalidNumber (String.ofList w)
  let (negative, digits) :=
    match w with
    | '-' :: rest => (true, rest)
    | w => (false, w)
  let hex? :=
    match digits with
    | '0' :: x :: rest => if x == 'x' || x == 'X' then some rest else none
    | _ => none
  match hex? with
  | some hex =>
    match readInt64 16 hex with
    | some n => .ok (.int (if negative then (-Int64.ofInt n).toInt else n))
    | none => .error invalid
  | none =>
    match readInt64 10 w with
    | some n => .ok (.int n)
    | none =>
      match readDouble w with
      | some x => .ok (.float x)
      | none => .error invalid

/-- Whether a word is a number: it starts with a digit, or with a minus sign and
a digit. -/
def startsNumber : List Char → Bool
  | '-' :: c :: _ => c.isDigit
  | c :: _ => c.isDigit
  | [] => false

/-- The token that a word is. -/
def classify (w : List Char) : Except AsmFault Token :=
  match w with
  | '#' :: name => .ok (.symbol (String.ofList name))
  | '@' :: name =>
    .ok (if name.getLast? == some ':' then .labelDef (String.ofList name.dropLast)
      else .label (String.ofList name))
  | w =>
    if w.contains '=' then
      .ok (.setting (String.ofList (w.takeWhile (· != '=')))
        (String.ofList ((w.dropWhile (· != '=')).drop 1)))
    else if startsNumber w then number w
    else .ok (.word (String.ofList w))

theorem length_dropWhile_le {α : Type} (p : α → Bool) (xs : List α) :
    (xs.dropWhile p).length ≤ xs.length :=
  (List.dropWhile_sublist p).length_le

/-- Splits the rest of a line, given the tokens already found, last first. -/
def tokenizeFrom (done : List Token) : List Char → Except AsmFault (List Token)
  | [] => .ok done.reverse
  | c :: rest =>
    if Text.isBlank c || c == ',' then tokenizeFrom done rest
    else if c == ';' then .ok done.reverse
    else if c == '"' then
      match h : readString [] rest with
      | none => .error .unterminatedString
      | some (s, rest') =>
        have := length_readString h
        tokenizeFrom (.string (String.ofList s) :: done) rest'
    else
      match classify (c :: rest.takeWhile (!endsWord ·)) with
      | .error fault => .error fault
      | .ok token =>
        have := length_dropWhile_le (!endsWord ·) rest
        tokenizeFrom (token :: done) (rest.dropWhile (!endsWord ·))
  termination_by cs => cs.length
  decreasing_by all_goals grind

/-- The tokens of a line. -/
def tokenize (line : List Char) : Except AsmFault (List Token) :=
  tokenizeFrom [] line

end Token

/-- The lines of a text. A line ends at a line feed, and a carriage return right
before it belongs to the end of the line. -/
def linesFrom : List Char → List Char → List (List Char)
  | line, [] => if line.isEmpty then [] else [line.reverse]
  | line, c :: rest =>
    if c == '\n' then
      (match line with
        | '\r' :: line => line.reverse
        | line => line.reverse) :: linesFrom [] rest
    else linesFrom (c :: line) rest

/-- The lines of a text. -/
def textLines (text : String) : List (List Char) :=
  linesFrom [] text.toList

end Lingo
