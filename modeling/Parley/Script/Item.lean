import Parley.Script.Comment

/-!
# Items of a script

Each line has a meaning of its own, told by how it begins. Only a code block may span lines: it
swallows every line up to one that is a closing brace.
-/

namespace Parley

open Text (trim breakOn? dropLast?)

/-- Conditions, keys and names are kept as they stand in the source, trimmed. -/
inductive Item where
  | blank
  | header (key : List Char)
  | speaker (name rest : List Char)
  /-- What follows the opening brace of a flag list. -/
  | flags (list : List Char)
  | redirect (condition key : List Char)
  | code (condition : List Char) (body : List Line)
  /-- A code block that the script ends in. -/
  | openCode (condition : List Char)
  /-- What follows the star of a choice. -/
  | choice (body : List Char)
  | text (content : List Char)
deriving DecidableEq, Repr

/-- An item with the place of the line that it begins on. -/
structure Located where
  place : Place
  item : Item
deriving DecidableEq, Repr

namespace Item

/-- What a line is outside a code block. -/
inductive Form where
  | item (item : Item)
  /-- The line opens a code block that goes on below. -/
  | opensCode (condition : List Char) (first : List Line)

/-- A code block whose first line holds `rest` behind the opening brace. -/
def codeForm (place : Place) (condition rest : List Char) : Form :=
  let rest := trim rest
  match dropLast? '\x7d' rest with
  | some body => .item (.code condition [⟨place, body⟩])
  | none => .opensCode condition (if rest.isEmpty then [] else [⟨place, rest⟩])

/-- The condition in front of an exit: all between the braces, up to the first closing one. -/
def conditionOf (afterBrace : List Char) : List Char :=
  trim (afterBrace.takeWhile fun c => c != '\x7d')

/-- A line that opens with a brace. An arrow behind a closing brace makes it an exit, and one that
is followed by a brace wins wherever it stands; without an arrow it is a list of flags. -/
def braceForm (place : Place) (afterBrace : List Char) : Form :=
  match breakOn? ['\x7d', '=', '>', '\x7b'] afterBrace with
  | some (_, rest) => codeForm place (conditionOf afterBrace) rest
  | none =>
      match breakOn? ['\x7d', '=', '>'] afterBrace with
      | some (_, key) => .item (.redirect (conditionOf afterBrace) (trim key))
      | none => .item (.flags afterBrace)

/-- The first rule that fits decides. A bracket without `]:` behind it is plain text. -/
def formOf (place : Place) (text : List Char) : Form :=
  match text with
  | [] => .item .blank
  | '#' :: key => .item (.header (trim key))
  | '\x7b' :: rest => braceForm place rest
  | '=' :: '>' :: '\x7b' :: rest => codeForm place [] rest
  | '=' :: '>' :: key => .item (.redirect [] (trim key))
  | '*' :: body => .item (.choice body)
  | '[' :: rest =>
      match breakOn? [']', ':'] rest with
      | some (name, rest) => .item (.speaker name (trim rest))
      | none => .item (.text text)
  | _ => .item (.text text)

/-- A code block whose closing brace is still to come. -/
structure Pending where
  place : Place
  condition : List Char
  body : List Line

/-- Adds a line to the block. -/
def Pending.push (p : Pending) (line : Line) : Pending :=
  { p with body := p.body ++ [line] }

/-- Gathers lines into items. -/
def gather : Option Pending → List Line → List Located
  | none, [] => []
  | some p, [] => [⟨p.place, .openCode p.condition⟩]
  | some p, line :: lines =>
      if line.text = ['\x7d'] then ⟨p.place, .code p.condition p.body⟩ :: gather none lines
      else gather (some (p.push line)) lines
  | none, line :: lines =>
      match formOf line.place line.text with
      | .item item => ⟨line.place, item⟩ :: gather none lines
      | .opensCode condition first => gather (some ⟨line.place, condition, first⟩) lines

end Item

end Parley
