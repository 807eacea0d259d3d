import Parley.Conversation.Follow
import Parley.Conversation.Query

/-!
# Calls of the host

Everything a host can do to a conversation, as data: a session is a conversation and a list of
such calls.
-/

namespace Parley

/-- A call of the host with its arguments. What only the display knows, such as the choice that is
selected, comes with the call. -/
inductive HostCall where
  | start (key : String)
  | advance (selected : Nat)
  | confirm (reading : Conversation.Reading)
  | close
  | steer (x y : Float32)
  | addStore (s : Store)
  | setVariable (name : String) (v : Value)
  | unsetVariable (name : String)
  | registerCommand (name : String) (command : Command)
  | restoreSeen (seen : SeenTable)
  | takeEvents

namespace Conversation

/-- Navigation input changes nothing in the conversation. It is up to the display what to make of
it. -/
def steer (c : Conversation) (x y : Float32) : Conversation :=
  c.record [.steered x y]

def setVariable (c : Conversation) (name : String) (v : Value) : Conversation :=
  { c with vars := c.vars.set name v }

def unsetVariable (c : Conversation) (name : String) : Conversation :=
  { c with vars := c.vars.erase name }

def registerCommand (c : Conversation) (name : String) (command : Command) : Conversation :=
  { c with commands := c.commands.register name command }

/-- Puts another table in the place of the counts, as when a saved game is loaded. -/
def restoreSeen (c : Conversation) (seen : SeenTable) : Conversation :=
  { c with seen }

/-- The events since they were last taken, and the conversation without them. -/
def takeEvents (c : Conversation) : List Event × Conversation :=
  (c.events, { c with events := [] })

/-- The acts since the journal was last taken, and the conversation with an empty one. -/
def takeJournal (c : Conversation) : List Act × Conversation :=
  (c.journal, { c with journal := [] })

/-- The conversation after a call, whatever the call answers. -/
def perform (c : Conversation) : HostCall → Conversation
  | .start key => (c.start key).talk
  | .advance selected => (c.advance selected).talk
  | .confirm reading => (c.confirm reading).talk
  | .close => c.close
  | .steer x y => c.steer x y
  | .addStore s => c.addStore s
  | .setVariable name v => c.setVariable name v
  | .unsetVariable name => c.unsetVariable name
  | .registerCommand name command => c.registerCommand name command
  | .restoreSeen seen => c.restoreSeen seen
  | .takeEvents => c.takeEvents.2

/-- The conversation after all calls of a session, in order. -/
def performAll (c : Conversation) (calls : List HostCall) : Conversation :=
  calls.foldl perform c

end Conversation

end Parley
