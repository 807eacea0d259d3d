import Parley.Json.Basic
import Parley.Script.Graph

/-!
# Graphs as JSON

The exchange form of a dialogue graph. A speaker without a colour has no field for it.
-/

namespace Parley

namespace Flags

/-- Flags are named side by side with a bar between them. -/
def exchangeText (f : Flags) : String :=
  match f.oneShot, f.random with
  | false, false => ""
  | true, false => "ONE_SHOT"
  | false, true => "RANDOM"
  | true, true => "ONE_SHOT | RANDOM"

/-- The flags of a text that names them in their one order. -/
def ofExchangeText? (s : String) : Option Flags :=
  if s = "" then some {}
  else if s = "ONE_SHOT" then some ⟨true, false⟩
  else if s = "RANDOM" then some ⟨false, true⟩
  else if s = "ONE_SHOT | RANDOM" then some ⟨true, true⟩
  else none

end Flags

namespace Json

def textField? (name : String) (j : Json) : Option String :=
  (j.field? name).bind string?

def textsField? (name : String) (j : Json) : Option (List String) :=
  ((j.field? name).bind array?).bind fun items => items.mapM string?

def listField? {α : Type} (name : String) (read : Json → Option α) (j : Json) :
    Option (List α) :=
  ((j.field? name).bind array?).bind fun items => items.mapM read

def ofTexts (texts : List String) : Json :=
  .array (texts.map .string)

end Json

def Speaker.toJson (s : Speaker) : Json :=
  .object <|
    [("name", .string s.name), ("aliases", Json.ofTexts s.aliases)] ++
      match s.color with
      | some color => [("color", .string color)]
      | none => []

/-- A speaker needs a name and a list of aliases. A colour that is not a text is passed over. -/
def Speaker.ofJson? (j : Json) : Option Speaker := do
  let name ← j.textField? "name"
  let aliases ← j.textsField? "aliases"
  some ⟨name, aliases, j.textField? "color"⟩

def Choice.toJson (c : Choice) : Json :=
  .object [("text", .string c.text), ("key", .string c.key)]

def Choice.ofJson? (j : Json) : Option Choice := do
  some ⟨← j.textField? "text", ← j.textField? "key"⟩

def Element.toJson (e : Element) : Json :=
  .object
    [("speaker", (e.speaker.map Speaker.toJson).getD .null), ("text", .string e.text),
      ("options", .array (e.choices.map Choice.toJson))]

/-- An element that nobody speaks has the field for the speaker all the same, with nothing in it. -/
def Element.ofJson? (j : Json) : Option Element := do
  let speaker ←
    match ← j.field? "speaker" with
    | .null => some none
    | s => (Speaker.ofJson? s).map some
  some ⟨speaker, ← j.textField? "text", ← j.listField? "options" Choice.ofJson?⟩

def StatementKind.exchangeText : StatementKind → String
  | .call => "FunctionCall"
  | .assignment => "Attribution"

def StatementKind.ofExchangeText? (s : String) : Option StatementKind :=
  if s = "FunctionCall" then some .call
  else if s = "Attribution" then some .assignment
  else none

def Statement.toJson (s : Statement) : Json :=
  .object
    [("kind", .string s.kind.exchangeText), ("name", .string s.name),
      ("args", Json.ofTexts s.args)]

def Statement.ofJson? (j : Json) : Option Statement := do
  let kind ← StatementKind.ofExchangeText? (← j.textField? "kind")
  some ⟨kind, ← j.textField? "name", ← j.textsField? "args"⟩

/-- The kind of a target is the name of its only field. -/
def Target.toJson : Target → Json
  | .key k => .object [("Key", .string k)]
  | .code statements => .object [("Code", .array (statements.map Statement.toJson))]

def Target.ofJson? (j : Json) : Option Target :=
  match j.textField? "Key" with
  | some k => some (.key k)
  | none => (j.listField? "Code" Statement.ofJson?).map .code

def Exit.toJson (e : Exit) : Json :=
  .object [("condition", .string e.condition), ("next", e.target.toJson)]

def Exit.ofJson? (j : Json) : Option Exit := do
  some ⟨← j.textField? "condition", ← Target.ofJson? (← j.field? "next")⟩

/-- The fields keep the order that the rest of a game reads them in. -/
def Dialogue.toJson (d : Dialogue) : Json :=
  .object
    [("name", .string d.name), ("flags", .string d.flags.exchangeText),
      ("elements", .array (d.elements.map Element.toJson)),
      ("conditional_next", .array (d.exits.map Exit.toJson))]

/-- A dialogue is read only if all of it can be. -/
def Dialogue.ofJson? (j : Json) : Option Dialogue := do
  let flags ← Flags.ofExchangeText? (← j.textField? "flags")
  some
    { name := ← j.textField? "name"
      flags
      elements := ← j.listField? "elements" Element.ofJson?
      exits := ← j.listField? "conditional_next" Exit.ofJson? }

end Parley
