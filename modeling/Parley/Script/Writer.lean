import Parley.Script.Statement

/-!
# Writing a graph as a script

The written form reads back as the same graph. A speaker tag stands before every element that
has a speaker; an element without one gets an empty tag where its first line would otherwise go
to the speaker before it, or be taken for a blank line.
-/

namespace Parley

open Text (splitOn allBlank trim)

/-- A choice on a line of its own. -/
def Choice.write (c : Choice) : List Char :=
  ['*', ' '] ++ c.text.toList ++ [' ', '-', '>', ' '] ++ c.key.toList ++ ['\n']

namespace Element

/-- The tag in front of the first line. `speaking` tells whether the line above it left a
speaker in force. -/
def tag (speaking : Bool) (e : Element) (first : List Char) : List Char :=
  match e.speaker with
  | some s => '[' :: s.name.toList ++ [']', ':', ' ']
  | none => if speaking || allBlank first then ['[', ']', ':', ' '] else []

/-- An element with its tag, its lines and its choices, and a blank line that ends it. -/
def write (speaking : Bool) (e : Element) : List Char :=
  let lines := splitOn '\n' e.text.toList
  e.tag speaking (lines.head?.getD []) ++
    lines.flatMap (fun line => line ++ ['\n']) ++ e.choices.flatMap Choice.write ++ ['\n']

end Element

namespace Dialogue

/-- The elements, each told whether the one before it left a speaker in force. -/
def writeElements : (speaking : Bool) → List Element → List Char
  | _, [] => []
  | speaking, e :: es => e.write speaking ++ writeElements e.speaker.isSome es

/-- Without flags there is no line for them. -/
def writeFlags (f : Flags) : List Char :=
  if f.names.isEmpty then []
  else '\x7b' :: Text.joinWith [','] (f.names.map String.toList) ++ ['\x7d', '\n']

/-- The statements of a block stand on lines of their own, indented. -/
def writeTarget : Target → List Char
  | .key key => ['=', '>'] ++ key.toList ++ ['\n']
  | .code statements =>
      ['=', '>', '\x7b', '\n'] ++
        statements.flatMap (fun s => [' ', ' ', ' ', ' '] ++ s.write ++ [';', '\n']) ++
        ['\x7d', '\n']

/-- A blank condition is left out. -/
def writeExit (e : Exit) : List Char :=
  let condition := trim e.condition.toList
  (if condition.isEmpty then [] else '\x7b' :: condition ++ ['\x7d']) ++ writeTarget e.target

def write (d : Dialogue) : List Char :=
  ['#', ' '] ++ d.name.toList ++ ['\n'] ++ writeFlags d.flags ++
    writeElements false d.elements ++ d.exits.flatMap writeExit

end Dialogue

namespace Script

/-- Dialogues are set apart by a blank line. -/
def write (ds : List Dialogue) : String :=
  String.ofList (Text.joinWith ['\n'] (ds.map Dialogue.write))

end Script

end Parley
