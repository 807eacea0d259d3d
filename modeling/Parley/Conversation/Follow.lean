import Parley.Conversation.Basic

/-!
# Following a conversation

What happens when a dialogue starts and when it is asked to go on. A dialogue without elements
leaves at once, code may start other dialogues, and so one call of the host can pass through
many dialogues.

## Implementation notes

Every hop from one dialogue to another uses up one of the hops that a call of the host has. The
steps of a dialogue take the way to hop as a parameter, and `follow` ties the knot: it recurses
on a bound for how deep hops nest, which is never below the hops left, so that the limit itself
ends every chain.
-/

namespace Parley

/-- A conversation in the middle of a call of the host. -/
structure Turn where
  talk : Conversation
  /-- How many hops the call may still make. -/
  hops : Nat

/-- How a turn went on: the turn itself, and whether a mistake of the script stopped it. -/
structure Progress (α : Type) where
  turn : Turn
  result : Except ScriptFault α

namespace Turn

/-- Changes the conversation and leaves the hops as they are. -/
def update (t : Turn) (f : Conversation → Conversation) : Turn :=
  { t with talk := f t.talk }

def close (t : Turn) : Turn :=
  t.update Conversation.close

/-- Nothing went wrong so far. -/
def done (t : Turn) : Progress Unit :=
  ⟨t, .ok ()⟩

/-- The way from one dialogue to another: whether a dialogue is active afterwards. -/
abbrev Hop := String → Turn → Progress Bool

/-! ### Code -/

/-- An assignment keeps a truth value as it is and makes a number of all else. -/
def assignedValue (env : Environment) (e : Expr) : Except ExprError Value :=
  if e.dataType env = .bool then (e.evaluateBool env).map .bool
  else (e.evaluateNumber env).map .number

/-- Runs an assignment. An expression that cannot be read or evaluated leaves the variable as it is,
which is worth a notice. -/
def assign (c : Conversation) (name source : String) : Conversation :=
  let env := c.vars.lookup
  match (Expr.parse source).bind (assignedValue env) with
  | .ok v => { c with vars := c.vars.set name v }
  | .error cause => c.note (.assignmentSkipped cause)

/-- Does what a handler asked for, in order. A start that comes to nothing is passed over. -/
def perform (hop : Hop) : List Request → Turn → Progress Unit
  | [], t => t.done
  | .finish :: requests, t => perform hop requests t.close
  | .start key :: requests, t =>
      let next := hop key t
      match next.result with
      | .ok _ => perform hop requests next.turn
      | .error fault => ⟨next.turn, .error fault⟩

/-- Runs a command. Where the handler fails its variables stay, but nothing it asked for is
done. -/
def call (hop : Hop) (name : String) (sources : List String) (t : Turn) : Progress Unit :=
  match t.talk.commands.call name sources t.talk.vars with
  | .refused error => (t.update fun c => c.note (.commandFailed error)).done
  | .handled args reply =>
      let t := t.update fun c =>
        { c with vars := reply.vars }.record [.ran name args]
      match reply.failure with
      | some error => (t.update fun c => c.note (.commandFailed error)).done
      | none => perform hop reply.requests t

/-- Runs one statement. Only an assignment without an expression stops the turn. -/
def execute (hop : Hop) (dialogue : String) (s : Statement) (t : Turn) : Progress Unit :=
  match s.kind, s.args with
  | .call, sources => call hop s.name sources t
  | .assignment, [] => ⟨t, .error (.noExpression dialogue s.name)⟩
  | .assignment, source :: _ => (t.update fun c => assign c s.name source).done

/-- Runs statements in order, whatever becomes of the conversation, until one is a mistake. -/
def executeAll (hop : Hop) (dialogue : String) : List Statement → Turn → Progress Unit
  | [], t => t.done
  | s :: statements, t =>
      let next := execute hop dialogue s t
      match next.result with
      | .ok _ => executeAll hop dialogue statements next.turn
      | .error fault => ⟨next.turn, .error fault⟩

/-! ### Leaving a dialogue -/

/-- Hops to a key, and ends the conversation if that comes to nothing. -/
def hopOrClose (hop : Hop) (key : String) (t : Turn) : Progress Unit :=
  let next := hop key t
  match next.result with
  | .ok true => next.turn.done
  | .ok false => next.turn.close.done
  | .error fault => ⟨next.turn, .error fault⟩

/-- Runs the code of an exit. The conversation ends behind it, unless the code went elsewhere. -/
def runCode (hop : Hop) (slot : Slot) (dialogue : String) (statements : List Statement)
    (t : Turn) : Progress Unit :=
  let next := executeAll hop dialogue statements t
  match next.result with
  | .error fault => ⟨next.turn.close, .error fault⟩
  | .ok _ =>
      if (next.turn.talk.active.map Active.slot) = some slot then next.turn.close.done
      else next.turn.done

/-- Leaves a dialogue whose elements are exhausted by its first open exit. -/
def leave (hop : Hop) (slot : Slot) (d : Dialogue) (t : Turn) : Progress Unit :=
  let (target, notices) := Conversation.selectExit t.talk.vars.lookup d.exits
  let t := t.update fun c => c.record (notices.map .noticed)
  match target with
  | none => t.close.done
  | some (.key key) => hopOrClose hop key t
  | some (.code statements) => runCode hop slot d.name statements t

/-! ### Going on within a dialogue -/

/-- What comes after the element at `index`, or first when there is none. -/
inductive Move where
  | finish
  | pick
  | advance (index : Nat)
  | leave
deriving DecidableEq, Repr

/-- Where a dialogue goes from the element at `index`. One that picks its elements at random shows
one of them and is finished; any other shows them in order and is left behind the last. -/
def moveFrom (d : Dialogue) (index : Option Nat) : Move :=
  if d.picksElement then
    match index with
    | none => .pick
    | some _ => .finish
  else
    let next :=
      match index with
      | none => 0
      | some i => i + 1
    if next < d.elements.length then .advance next else .leave

/-- Shows the element at an index of the active dialogue. -/
def presentAt (t : Turn) (a : Active) (d : Dialogue) (index : Nat) : Turn :=
  match d.elements[index]? with
  | some e => t.update fun c => c.present a index e
  | none => t

/-- Shows an element that the stream picks, and moves the stream on. -/
def presentRandom (t : Turn) (a : Active) (d : Dialogue) : Turn :=
  let (index, stream) := t.talk.stream.pick d.elements.length
  (t.update fun c => { c with stream }).presentAt a d index

/-- Goes on in the active dialogue where no choice is asked for: to an element, to the end, or out
through an exit. -/
def proceed (hop : Hop) (a : Active) (d : Dialogue) (t : Turn) : Progress Unit :=
  match moveFrom d a.index with
  | .finish => t.close.done
  | .pick => (t.presentRandom a d).done
  | .advance index => (t.presentAt a d index).done
  | .leave => leave hop a.slot d t

/-- Takes the selected choice of the element shown. -/
def choose (hop : Hop) (e : Element) (selected : Nat) (t : Turn) : Progress Unit :=
  match e.choices[selected]? with
  | some choice => hopOrClose hop choice.key t
  | none => (t.update fun c => c.note .choiceOutOfRange).close.done

/-- Goes on from the element shown, by the selected choice if it has any. -/
def step (hop : Hop) (selected : Nat) (t : Turn) : Progress Unit :=
  match t.talk.active with
  | none => t.close.done
  | some a =>
      match t.talk.dialogueAt a.slot with
      | none => t.close.done
      | some d =>
          match a.element? d with
          | some e => if e.hasChoices then choose hop e selected t else proceed hop a d t
          | none => proceed hop a d t

/-! ### Starting a dialogue -/

/-- Starts the dialogue at a place. Another active dialogue is ended first; the same one starts
over. -/
def enter (hop : Hop) (slot : Slot) (d : Dialogue) (key : String) (t : Turn) : Progress Bool :=
  let elsewhere := t.talk.active.any fun a => a.slot != slot
  let t := if elsewhere then t.close else t
  let t := t.update fun c => c.begin slot key
  let next := proceed hop ⟨slot, key, none⟩ d t
  match next.result with
  | .ok _ => ⟨next.turn, .ok next.turn.talk.isTalking⟩
  | .error fault => ⟨next.turn, .error fault⟩

/-- Starts the dialogue of a key, unless there is none or it may not start again. -/
def start (hop : Hop) : Hop := fun key t =>
  match (t.talk.locate key).bind fun slot => (t.talk.dialogueAt slot).map (slot, ·) with
  | none => ⟨t.update fun c => c.note (.unknownDialogue key), .ok false⟩
  | some (slot, d) =>
      if d.flags.oneShot && t.talk.seen.has key then ⟨t, .ok false⟩
      else enter hop slot d key t

/-- Where no hop is left the conversation ends. -/
def outOfHops (key : String) (t : Turn) : Progress Bool :=
  ⟨(t.update fun c => c.note (.redirectLimit key)).close, .ok false⟩

/-- Hops that nest at most `depth` deep. -/
def follow : (depth : Nat) → Hop
  | 0 => outOfHops
  | depth + 1 => fun key t =>
      match t.hops with
      | 0 => outOfHops key t
      | hops + 1 => start (follow depth) key { t with hops }

/-- A turn with all its hops, and the way it hops. -/
def fresh (c : Conversation) : Turn :=
  ⟨c, c.config.maxRedirects⟩

end Turn

namespace Conversation

/-- What a call of the host came to. -/
structure Result (α : Type) where
  talk : Conversation
  result : Except ScriptFault α

/-- What the host gets to see of a turn: how many hops it had left is forgotten. -/
def Result.ofProgress {α : Type} (p : Progress α) : Result α :=
  ⟨p.turn.talk, p.result⟩

/-- Starts a dialogue by its key, ending another one that is active. The answer tells whether a
dialogue is active afterwards; it is no for a key that is unknown or may not start again. -/
def start (c : Conversation) (key : String) : Result Bool :=
  .ofProgress (Turn.start (Turn.follow c.config.maxRedirects) key (Turn.fresh c))

/-- Goes on to the next element, through the selected choice, or out of the dialogue. -/
def advance (c : Conversation) (selected : Nat) : Result Unit :=
  .ofProgress (Turn.step (Turn.follow c.config.maxRedirects) selected (Turn.fresh c))

/-- Where the element shown asks for no choice, the active dialogue goes on by itself. -/
theorem advance_eq_proceed {c : Conversation} {a : Active} {d : Dialogue}
    (hactive : c.active = some a) (hd : c.dialogueAt a.slot = some d)
    (hplain : ∀ e, a.element? d = some e → e.hasChoices = false) (selected : Nat) :
    c.advance selected =
      .ofProgress (Turn.proceed (Turn.follow c.config.maxRedirects) a d (Turn.fresh c)) := by
  have hactive' : (Turn.fresh c).talk.active = some a := hactive
  have hd' : (Turn.fresh c).talk.dialogueAt a.slot = some d := hd
  simp only [advance, Turn.step, hactive', hd']
  cases he : a.element? d with
  | none => rfl
  | some e => simp only [hplain e he, Bool.false_eq_true, if_false]

/-- What the display tells about itself. -/
structure Reading where
  /-- Whether a text is still being revealed. -/
  revealing : Bool := false
  /-- Which choice is selected, counted from zero. -/
  selected : Nat := 0

/-- The player's confirmation: it finishes a text still being revealed, and else goes on. -/
def confirm (c : Conversation) (reading : Reading) : Result Unit :=
  if reading.revealing then ⟨c.record [.skipped], .ok ()⟩ else c.advance reading.selected

end Conversation

end Parley
