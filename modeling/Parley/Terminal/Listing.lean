import Parley.Script.Basic
import Parley.Table

/-!
# Listing a script

An overview of dialogues as a table: a row for each, with its exits below one another.
-/

namespace Parley.Listing

/-- Stands for nothing in a cell. -/
def nothing : String := "—"

def orNone (text : String) : String :=
  if text.isEmpty then nothing else text

def targetText : Target → String
  | .key key => key
  | .code statements => s!"code ({statements.length} statements)"

/-- An exit with its condition, if it has one. -/
def exitText (e : Exit) : String :=
  if e.isUnconditional then targetText e.target
  else s!"\x7b{e.condition}\x7d {targetText e.target}"

def choiceCount (d : Dialogue) : Nat :=
  d.elements.foldl (fun n e => n + e.choices.length) 0

/-- What is told of a dialogue, one text for each column. -/
def cells (d : Dialogue) : List String :=
  [d.name, orNone (", ".intercalate d.flags.names), toString d.elements.length,
    toString (choiceCount d), orNone ("\n".intercalate (d.exits.map exitText))]

def row (texts : List String) : List Cell :=
  texts.map fun text => Cell.ofText text.toList

def table (dialogues : List Dialogue) : Table where
  header := row ["Key", "Flags", "Elements", "Options", "Exits"]
  rows := dialogues.map fun d => row (cells d)

/-- The table and the number of dialogues below it. -/
def text (dialogues : List Dialogue) : String :=
  if dialogues.isEmpty then "  No dialogues found.\n"
  else
    String.ofList (table dialogues).text ++ s!"\n  {dialogues.length} dialogues\n"

end Parley.Listing
