import Parley.Speaker.Registry
import Parley.Toml.Document

/-!
# Speaker files

A speaker file is a TOML document whose `speaker` entries list the speakers. A name is required,
aliases and a colour are not; anything else in the file is passed over.
-/

namespace Parley.Roster

open Toml (Node Entries)

def text? : Node → Option String
  | .text s => some s
  | _ => none

def texts? : Node → Option (List String)
  | .list items => items.mapM text?
  | _ => none

/-- A field that may be missing, but must be well formed if it is there. -/
def optional? {α : Type} (read : Node → Option α) : Option Node → Option (Option α)
  | none => some none
  | some node => (read node).map some

/-- A speaker from the values of its fields, as far as they are there. -/
def speakerOf? (name aliases color : Option Node) : Option Speaker := do
  let name ← text? (← name)
  let aliases ← optional? texts? aliases
  let color ← optional? text? color
  some ⟨name, aliases.getD [], color⟩

def speakerOfEntries? (es : Entries) : Option Speaker :=
  speakerOf? (es.lookup "name") (es.lookup "aliases") (es.lookup "color")

/-- A speaker is a table, or a list of name, aliases and colour. -/
def speakerOfNode? : Node → Option Speaker
  | .inlineTable es => speakerOfEntries? es
  | .table _ _ es => speakerOfEntries? es
  | .list items => speakerOf? items[0]? items[1]? items[2]?
  | _ => none

/-- The speakers that a document lists, in order. It may list none. -/
def speakersOf? (root : Entries) : Option (List Speaker) :=
  match root.lookup "speaker" with
  | none => some []
  | some (.list items) => items.mapM speakerOfNode?
  | some (.tables items) => items.mapM speakerOfEntries?
  | some _ => none

/-- The registry of a speaker file, or nothing if any speaker in it is malformed. -/
def read? (source : String) : Option Registry := do
  return .ofSpeakers false (← speakersOf? (← Toml.parse? source))

end Parley.Roster
