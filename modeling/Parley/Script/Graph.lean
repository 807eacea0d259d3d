import Parley.Speaker.Basic

/-!
# The dialogue graph

A dialogue shows its elements, then leaves through the first exit whose condition holds. A player
answers an element that has choices by taking one of them. Exits and choices name the dialogue
they lead to by its key; an exit may also run code.
-/

namespace Parley

/-- How a dialogue is started. -/
structure Flags where
  /-- The dialogue starts at most once. -/
  oneShot : Bool := false
  /-- Each start shows one element, picked at random. -/
  random : Bool := false
deriving DecidableEq, Repr, Inhabited

namespace Flags

/-- The flags of several lists add up. -/
def union (a b : Flags) : Flags :=
  ⟨a.oneShot || b.oneShot, a.random || b.random⟩

/-- The flag a script calls by this name, in any case. The name `none` stands for no flag. -/
def ofName? (name : String) : Option Flags :=
  let word := String.ofList ((Text.trim name.toList).map Char.toLower)
  if word = "none" then some {}
  else if word = "oneshot" then some { oneShot := true }
  else if word = "random" then some { random := true }
  else none

/-- The names that a script has for the flags, always in this order. -/
def names (f : Flags) : List String :=
  (if f.oneShot then ["OneShot"] else []) ++ if f.random then ["Random"] else []

end Flags

/-- An answer the player may give, and the dialogue it leads to. -/
structure Choice where
  text : String
  key : String
deriving DecidableEq, Repr, Inhabited

/-- One thing shown at a time. The lines of the text are joined by line feeds. -/
structure Element where
  speaker : Option Speaker := none
  text : String := ""
  choices : List Choice := []
deriving DecidableEq, Repr, Inhabited

def Element.hasChoices (e : Element) : Bool :=
  !e.choices.isEmpty

/-- What a statement does: it calls a command or sets a variable. -/
inductive StatementKind where
  | call
  | assignment
deriving DecidableEq, Repr, Inhabited

/-- A statement of inline code. The arguments are sources of expressions; an assignment has its
right side as its only argument, or none where that side is empty. -/
structure Statement where
  kind : StatementKind
  name : String
  args : List String
deriving DecidableEq, Repr, Inhabited

def Statement.call (name : String) (args : List String) : Statement :=
  ⟨.call, name, args⟩

def Statement.assign (name : String) (value : String) : Statement :=
  ⟨.assignment, name, [value]⟩

/-- Where an exit leads: to another dialogue, or into code that may go anywhere or nowhere. -/
inductive Target where
  | key (key : String)
  | code (statements : List Statement)
deriving DecidableEq, Repr, Inhabited

def Target.isCode : Target → Bool
  | .key _ => false
  | .code _ => true

/-- A way out of a dialogue, open when the condition holds. A blank condition always does. -/
structure Exit where
  condition : String := ""
  target : Target
deriving DecidableEq, Repr, Inhabited

/-- An exit without a condition is always open. -/
def Exit.isUnconditional (e : Exit) : Bool :=
  Text.allBlank e.condition.toList

/-- A node of the graph: the key it is found by, how it starts, what it shows and how it is left. -/
structure Dialogue where
  name : String
  flags : Flags := {}
  elements : List Element := []
  exits : List Exit := []
deriving DecidableEq, Repr, Inhabited

namespace Dialogue

/-- A dialogue without elements only leads elsewhere. -/
def isRedirect (d : Dialogue) : Bool :=
  d.elements.isEmpty

/-- Whether a start shows one element picked at random. -/
def picksElement (d : Dialogue) : Bool :=
  d.flags.random && !d.elements.isEmpty

end Dialogue

end Parley
