/-!
# Reading UTF-8

`decodeUtf8` reads bytes as UTF-8 and never fails: each longest run of bytes
that starts a character but does not complete it, and each byte that starts
none, becomes one replacement character.
-/

namespace Lingo.Text

/-- What stands for bytes that spell no character. -/
def replacement : Char := '\ufffd'

/-- For the first byte of a character of several bytes: the continuation bytes
it needs and the range of the first of them. -/
def utf8Lead (b : UInt8) : Option (Nat × Nat × Nat) :=
  let n := b.toNat
  if 0xC2 ≤ n && n ≤ 0xDF then some (1, 0x80, 0xBF)
  else if n == 0xE0 then some (2, 0xA0, 0xBF)
  else if n == 0xED then some (2, 0x80, 0x9F)
  else if 0xE1 ≤ n && n ≤ 0xEF then some (2, 0x80, 0xBF)
  else if n == 0xF0 then some (3, 0x90, 0xBF)
  else if 0xF1 ≤ n && n ≤ 0xF3 then some (3, 0x80, 0xBF)
  else if n == 0xF4 then some (3, 0x80, 0x8F)
  else none

/-- Takes up to `needed` continuation bytes, the first between `low` and
`high`, adding their bits to `value`: how many bytes are still missing, the
value so far, and how many bytes were taken. -/
def utf8Tail : Nat → Nat → Nat → Nat → List UInt8 → Nat × Nat × Nat
  | 0, _, _, value, _ => (0, value, 0)
  | needed + 1, _, _, value, [] => (needed + 1, value, 0)
  | needed + 1, low, high, value, b :: rest =>
    if low ≤ b.toNat && b.toNat ≤ high then
      let (missing, value, taken) :=
        utf8Tail needed 0x80 0xBF (value * 64 + b.toNat % 64) rest
      (missing, value, taken + 1)
    else (needed + 1, value, 0)

/-- Reads the bytes after the characters in `done`, which are last first. -/
def decodeUtf8From (done : List Char) : List UInt8 → List Char
  | [] => done.reverse
  | b :: rest =>
    if b.toNat < 0x80 then decodeUtf8From (Char.ofNat b.toNat :: done) rest
    else
      match utf8Lead b with
      | none => decodeUtf8From (replacement :: done) rest
      | some (needed, low, high) =>
        let (missing, value, taken) :=
          utf8Tail needed low high (b.toNat % Nat.pow 2 (6 - needed)) rest
        decodeUtf8From ((if missing == 0 then Char.ofNat value else replacement) :: done)
          (rest.drop taken)
  termination_by bytes => bytes.length
  decreasing_by all_goals grind

/-- The text that bytes spell. -/
def decodeUtf8 (bytes : List UInt8) : String :=
  String.ofList (decodeUtf8From [] bytes)

end Lingo.Text
