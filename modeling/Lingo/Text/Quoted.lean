import Lingo.Text.PrintTable

/-!
# Quoted texts

`quote` writes a text between double quotes so that it fits on one line: the
quote, the backslash, NUL, tab, line feed and carriage return become two-character
escapes, and every character that would not show, or that would merge with the
one before it, becomes `\u` and its code point in braces.
-/

namespace Lingo.Text

/-- Lower-case hexadecimal digits of a number, without leading zeros. -/
def hexDigits (n : Nat) : List Char :=
  Nat.toDigits 16 n

/-- Whether a character is written as itself between quotes, apart from the
characters that have an escape of their own. -/
def isPlain (c : Char) : Bool :=
  (0x20 ≤ c.toNat && c.toNat < 0x7F) ||
    (!withinEdges extendingEdges c && !withinEdges unprintableEdges c)

/-- One character as it stands between quotes. -/
def quoteChar (c : Char) : List Char :=
  if c == '"' then ['\\', '"']
  else if c == '\\' then ['\\', '\\']
  else if c == '\n' then ['\\', 'n']
  else if c == '\r' then ['\\', 'r']
  else if c == '\t' then ['\\', 't']
  else if c == '\x00' then ['\\', '0']
  else if isPlain c then [c]
  else ['\\', 'u', '\x7b'] ++ hexDigits c.toNat ++ ['\x7d']

/-- The characters of a quoted text, quotes included. -/
def quoteChars (cs : List Char) : List Char :=
  '"' :: cs.flatMap quoteChar ++ ['"']

/-- A text in double quotes. -/
def quote (s : String) : String :=
  String.ofList (quoteChars s.toList)

end Lingo.Text
