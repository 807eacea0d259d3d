import Parley.Conversation.Basic
import Parley.Text.Quoted
import Parley.Text.Split

/-!
# The screen

What a player sees of a conversation: the acts of its journal, written one below another, and
which of the choices is marked.
-/

namespace Parley.Screen

/-! ### Speakers -/

/-- A cut that falls inside a character: at byte `byte`, where the character begins at `start`. -/
structure Miscut where
  byte : Nat
  start : Nat
  char : Char
deriving DecidableEq, Repr

/-- What breaks off at such a cut says this last. -/
def Miscut.message (m : Miscut) : String :=
  let char := String.ofList (Text.escapeChar m.char)
  let stop := m.start + m.char.utf8Size
  s!"end byte index {m.byte} is not a char boundary; " ++
    s!"it is inside '{char}' (bytes {m.start}..{stop} of string)"

/-- The text before byte `n` and the text from there on, where all of it begins at byte `start`.
It can be cut between characters only. -/
def cutFrom (start n : Nat) : List Char → Except Miscut (List Char × List Char)
  | [] => .ok ([], [])
  | c :: cs =>
      if n ≤ start then .ok ([], c :: cs)
      else if n < start + c.utf8Size then .error ⟨n, start, c⟩
      else (cutFrom (start + c.utf8Size) n cs).map fun (front, rest) => (c :: front, rest)

/-- The two bytes from byte `n` on, where they are whole characters. -/
def pairAt (n : Nat) (cs : List Char) : Except Miscut (List Char) := do
  let (front, _) ← cutFrom 0 (n + 2) cs
  let (_, pair) ← cutFrom 0 n front
  return pair

/-- A hint of seven bytes that begins with `#` gives a colour by its three channels. -/
def hasChannels (color : String) : Bool :=
  color.utf8ByteSize = 7 && color.startsWith "#"

/-- The digits of the three channels. Each stands right behind the one before, so a cut that fails
is always one behind a channel. -/
def channels (color : String) : Except Miscut (List (List Char)) :=
  [1, 3, 5].mapM fun n => pairAt n color.toList

/-- The name of a speaker as it is painted, which takes the channels of its colour. Without
channels to be had there is nothing to paint. The paint itself is left out. -/
def paintedName (s : Speaker) : Except Miscut String :=
  match s.color with
  | none => .ok s.name
  | some color => if hasChannels color then (channels color).map fun _ => s.name else .ok s.name

/-! ### Acts -/

def indented (line : String) : String :=
  s!"  {line}\n"

def textLines (text : String) : String :=
  String.join ((Text.lines text.toList).map fun line => indented (String.ofList line))

def choiceLines (n : Nat) : List Choice → String
  | [] => ""
  | c :: cs => s!"    {n}) {c.text}\n" ++ choiceLines (n + 1) cs

/-- What has been written, and the cut at which writing broke off, if it did. -/
structure Written where
  text : String := ""
  fault : Option Miscut := none
deriving DecidableEq, Repr

/-- An element is drawn from the name of its speaker on, the choices numbered from one. -/
def ofElement (e : Element) : Written :=
  let rest := textLines e.text ++ choiceLines 1 e.choices
  match e.speaker with
  | none => ⟨"\n" ++ rest, none⟩
  | some s =>
      match paintedName s with
      | .ok name => ⟨"\n" ++ indented name ++ rest, none⟩
      | .error miscut => ⟨"\n", some miscut⟩

/-- Elements are shown, and so is what the command `print` is called with. Nothing else is. -/
def ofAct : Act → Written
  | .shown e => ofElement e
  | .ran "print" args =>
      match args with
      | .string s :: _ => ⟨indented s!"> {s}", none⟩
      | _ => ⟨indented "> ", none⟩
  | _ => {}

/-- Nothing is written behind a break. -/
def ofActs : List Act → Written
  | [] => {}
  | a :: acts =>
      let first := ofAct a
      if first.fault.isSome then first
      else
        let rest := ofActs acts
        ⟨first.text ++ rest.text, rest.fault⟩

/-! ### The cursor -/

/-- How many choices are on display, and the one that is marked, counted from zero. -/
structure Cursor where
  choices : Nat := 0
  selected : Nat := 0
deriving DecidableEq, Repr

namespace Cursor

/-- Up or down by one choice, without leaving the choices. -/
def steer (c : Cursor) (y : Float32) : Cursor :=
  if c.choices = 0 then c
  else if 0 < y then { c with selected := c.selected - 1 }
  else if y < 0 then { c with selected := min (c.selected + 1) (c.choices - 1) }
  else c

/-- With every element shown the cursor goes back to the first choice. -/
def after (c : Cursor) : Act → Cursor
  | .shown e => ⟨e.choices.length, 0⟩
  | .cleared => {}
  | .steered _ y => c.steer y
  | _ => c

end Cursor

end Parley.Screen
