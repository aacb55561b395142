import Lingo.Memory
import Lingo.Number.Shortest

/-!
# Texts of values

`Memory.display` writes a value as the message window shows it, and
`Memory.text` as it takes part in texts: void is empty, texts and symbols are
bare, and everything else is displayed. `Memory.text` is also the key under
which a value addresses an entry of a property list.

A list or a property list is displayed with its contents, and so one that
contains itself has no text at all. Nor has a property list while an entry of it
is being written: it cannot be read then. `Memory.display?` and
`Memory.textWhile?` say which values have a text.
-/

namespace Lingo.Memory

/-- Text of an integer. -/
def intText (n : Int32) : String :=
  toString n.toInt

/-- Displays a value, looking `fuel - 1` levels into containers. There is no text
if that is not deep enough, or if the property list `written` has to be read. -/
def displayTo? (m : Memory) (written : Option Nat) : Nat → Value → Option String
  | 0, _ => none
  | fuel + 1, v =>
    match v with
    | .void => some "<Void>"
    | .int n => some (intText n)
    | .float x => some x.text
    | .text s => some ("\"" ++ s ++ "\"")
    | .symbol s => some ("#" ++ s)
    | .sprite channel => some ("sprite(" ++ intText channel ++ ")")
    | .member castLib number =>
      some ("member(" ++ intText number ++ ", " ++ intText castLib ++ ")")
    | .castLib number => some ("castLib(" ++ intText number ++ ")")
    | .script r => some ("<script " ++ intText r.member ++ ", " ++ intText r.castLib ++ ">")
    | .window name => some ("window(\"" ++ name ++ "\")")
    | .stage => some "(the stage)"
    | .movie => some "(the movie)"
    | .player => some "(the player)"
    | .xtra name => some ("<Xtra \"" ++ name ++ "\">")
    | .timeout name => some ("timeout(\"" ++ name ++ "\")")
    | .varRef kind index => some ("<varref:" ++ intText kind ++ "," ++ intText index ++ ">")
    | .chunkRef r =>
      some ("<chunkref:" ++ r.kind.name ++ "[" ++ intText r.start ++ ".." ++ intText r.stop ++ "]>")
    | .color c => some s!"color({c.red}, {c.green}, {c.blue})"
    | .point cell =>
      let p := m.point cell
      some ("point(" ++ intText p.x ++ ", " ++ intText p.y ++ ")")
    | .rect cell =>
      let r := m.rect cell
      some ("rect(" ++ intText r.left ++ ", " ++ intText r.top ++ ", " ++ intText r.right ++ ", " ++
        intText r.bottom ++ ")")
    | .list cell =>
      ((m.list cell).toList.mapM (m.displayTo? written fuel)).map fun items =>
        "[" ++ ", ".intercalate items ++ "]"
    | .propList cell =>
      if written = some cell then none
      else
        ((m.props cell).entries.mapM fun (k, v) =>
          (m.displayTo? written fuel v).map fun shown => "#" ++ k ++ ": " ++ shown).map fun
          | [] => "[:]"
          | entries => "[" ++ ", ".intercalate entries ++ "]"
    | .argList cell => some s!"<arglist:{(m.list cell).size}>"
    | .argListNoRet cell => some s!"<arglist-noret:{(m.list cell).size}>"
    | .object id => some s!"<script instance {id.index}>"

/-- A value as the message window shows it, if it does not contain itself. -/
def display? (m : Memory) (v : Value) : Option String :=
  m.displayTo? none m.levels v

/-- A value as the message window shows it. -/
def display (m : Memory) (v : Value) : String :=
  (m.display? v).getD ""

/-- A value as it takes part in texts, if it has a text while the property list
`written` cannot be read. -/
def textWhile? (m : Memory) (written : Option Nat) : Value → Option String
  | .void => some ""
  | .text s | .symbol s => some s
  | v => m.displayTo? written m.levels v

/-- A value as it takes part in texts, if it does not contain itself. -/
def text? (m : Memory) (v : Value) : Option String :=
  m.textWhile? none v

/-- A value as it takes part in texts, and as a key of a property list. -/
def text (m : Memory) (v : Value) : String :=
  (m.text? v).getD ""

end Lingo.Memory
