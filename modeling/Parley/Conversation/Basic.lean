import Parley.Command
import Parley.Random
import Parley.Store

/-!
# Conversations

A conversation plays dialogues out of a list of stores, one at a time. It keeps the variables,
counts the starts of each dialogue, and writes down everything it does in a journal: what is
shown and cleared, which commands run, what is noteworthy, and the events it reports.

## Implementation notes

The journal stands for the display and for everything else outside: the host reads the acts off
it and performs them. What the display tells the conversation, such as the choice that is
selected, is handed in with each call.
-/

namespace Parley

/-- What is reported to the host: each start of a dialogue, and each end of the conversation. -/
inductive Event where
  | started (key : String)
  | ended
deriving DecidableEq, Repr

/-- Something that went wrong in a call of the host and did not make the call fail. -/
inductive Notice where
  | unknownDialogue (key : String)
  | redirectLimit (key : String)
  | redirectLimitResolving (key : String)
  | choiceOutOfRange
  | conditionFailed (cause : ExprError)
  | assignmentSkipped (cause : ExprError)
  | commandFailed (cause : CommandError)
deriving DecidableEq

namespace Notice

/-- A command that does not succeed is an error, and everything else a warning. -/
def severity : Notice → Severity
  | .commandFailed _ => .error
  | _ => .warning

def message : Notice → String
  | .unknownDialogue _ => "cannot start conversation: dialogue not found"
  | .redirectLimit _ => "redirect limit reached, ending conversation"
  | .redirectLimitResolving _ => "redirect limit reached while resolving dialogue"
  | .choiceOutOfRange => "selected option out of range"
  | .conditionFailed cause => s!"condition treated as false: {cause.message}"
  | .assignmentSkipped cause => s!"assignment skipped: {cause.message}"
  | .commandFailed cause => s!"command failed: {cause.message}"

end Notice

/-- Something a conversation does that can be seen from outside. -/
inductive Act where
  | shown (e : Element)
  | cleared
  | skipped
  /-- Navigation input passed on to the display. -/
  | steered (x y : Float32)
  | ran (command : String) (args : List Argument)
  | noticed (n : Notice)
  | event (e : Event)

/-- An assignment without an expression is a mistake of the script that stops the conversation. -/
inductive ScriptFault where
  | noExpression (dialogue name : String)
deriving DecidableEq, Repr

def ScriptFault.message : ScriptFault → String
  | .noExpression dialogue name =>
      s!"script error in dialogue \"{dialogue}\": assignment to \"{name}\" has no expression"

/-- How often each dialogue has been started. Counts stop at the largest 32-bit number. -/
structure SeenTable where
  counts : Std.TreeMap String UInt32 := {}

namespace SeenTable

/-- The number of starts since the table was made, up to the largest number. -/
def times (t : SeenTable) (key : String) : UInt32 :=
  t.counts.getD key 0

def has (t : SeenTable) (key : String) : Bool :=
  0 < t.times key

/-- Counts one more start of the dialogue. -/
def mark (t : SeenTable) (key : String) : SeenTable :=
  let n := t.times key
  ⟨t.counts.insert key (if n = UInt32.ofNat (UInt32.size - 1) then n else n + 1)⟩

def ofList (counts : List (String × UInt32)) : SeenTable :=
  ⟨counts.foldl (fun t (key, n) => t.insert key n) {}⟩

def toList (t : SeenTable) : List (String × UInt32) :=
  t.counts.toList

theorem times_mark (t : SeenTable) (key other : String) :
    (t.mark key).times other =
      if key = other then
        if t.times key = UInt32.ofNat (UInt32.size - 1) then t.times key else t.times key + 1
      else t.times other := by
  simp [mark, times, Std.TreeMap.getD_insert]

theorem has_mark_of_ne (t : SeenTable) {key other : String} (h : key ≠ other) :
    (t.mark key).has other = t.has other := by
  simp only [has, times_mark, if_neg h]

/-- Counts stop at the largest number, they do not start over. -/
theorem has_mark_self (t : SeenTable) (key : String) : (t.mark key).has key = true := by
  simp only [has, times_mark, if_true, decide_eq_true_eq]
  split
  · next hlast =>
      rw [hlast]
      decide
  · next hmore =>
      have hne : (t.times key).toNat ≠ 2 ^ 32 - 1 := fun heq => hmore (UInt32.toNat_inj.mp heq)
      have hlt : (t.times key).toNat < 2 ^ 32 := (t.times key).toNat_lt
      have hsum : (t.times key + 1).toNat = (t.times key).toNat + 1 := by
        rw [UInt32.toNat_add]
        exact Nat.mod_eq_of_lt (by change (t.times key).toNat + 1 < 2 ^ 32; omega)
      rw [UInt32.lt_iff_toNat_lt, hsum]
      exact Nat.succ_pos _

theorem has_mark_of_has {t : SeenTable} {other : String} (h : t.has other = true)
    (key : String) : (t.mark key).has other = true := by
  by_cases heq : key = other
  · rw [heq, has_mark_self]
  · rw [has_mark_of_ne t heq, h]

end SeenTable

/-- What the host sets up once: the seed of the random picks, and the hops that a call may make. -/
structure Config where
  seed : Option UInt64 := none
  /-- How many transitions one call of the host may follow. -/
  maxRedirects : Nat := 32
deriving DecidableEq, Repr

/-- Where a dialogue is found: its store and its place in it. -/
structure Slot where
  store : Nat
  dialogue : Nat
deriving DecidableEq, Repr

/-- The dialogue being played, by its place and the key it was started under, and the element of it
that is on show. -/
structure Active where
  slot : Slot
  key : String
  /-- The element shown; none until the first one is. -/
  index : Option Nat
deriving DecidableEq, Repr

/-- The element shown, in the dialogue that is active. -/
def Active.element? (a : Active) (d : Dialogue) : Option Element :=
  a.index.bind fun i => d.elements[i]?

/-- The state of a conversation, all of it: what may be played, what is remembered, what is going
on, and what has been done. Dialogues are looked up in the stores in order, so the first store that
has a key wins. -/
structure Conversation where
  config : Config
  stream : Random.Stream
  stores : List Store := []
  vars : Variables := {}
  commands : CommandTable := {}
  seen : SeenTable := {}
  /-- Events the host has not taken yet. -/
  events : List Event := []
  active : Option Active := none
  /-- Everything done since the journal was last taken. -/
  journal : List Act := []

namespace Conversation

/-- A conversation without dialogues. `entropy` seeds the random picks when the configuration
does not. -/
def new (config : Config) (entropy : UInt64) : Conversation :=
  { config, stream := .ofSeed (config.seed.getD entropy) }

/-- A store that is added comes last, and hides none of those before it. -/
def addStore (c : Conversation) (s : Store) : Conversation :=
  { c with stores := c.stores ++ [s] }

/-! ### What is going on -/

/-- The dialogue at a place, if there is one. -/
def dialogueAt (c : Conversation) (slot : Slot) : Option Dialogue :=
  c.stores[slot.store]?.bind fun s => s.dialogues[slot.dialogue]?

/-- Whether a dialogue is active. -/
def isTalking (c : Conversation) : Bool :=
  c.active.isSome

def currentKey (c : Conversation) : Option String :=
  c.active.map Active.key

def currentDialogue (c : Conversation) : Option Dialogue :=
  c.active.bind fun a => c.dialogueAt a.slot

/-- The element on show; none before the first of a dialogue is shown. -/
def currentElement (c : Conversation) : Option Element :=
  c.active.bind fun a => (c.dialogueAt a.slot).bind a.element?

/-- The first store that has the key, from store `n` on. -/
def locateFrom (key : String) (n : Nat) : List Store → Option Slot
  | [] => none
  | s :: rest =>
      match s.position? key with
      | some slot => some ⟨n, slot⟩
      | none => locateFrom key (n + 1) rest

/-- The place of a key: that in the first store which has it. -/
def locate (c : Conversation) (key : String) : Option Slot :=
  locateFrom key 0 c.stores

/-! ### Single acts -/

/-- Writes acts behind those in the journal. -/
def record (c : Conversation) (acts : List Act) : Conversation :=
  { c with journal := c.journal ++ acts }

def note (c : Conversation) (n : Notice) : Conversation :=
  c.record [.noticed n]

/-- Reports an event, both to the host and in the journal. -/
def emit (c : Conversation) (e : Event) : Conversation :=
  { c with events := c.events ++ [e], journal := c.journal ++ [.event e] }

/-- Clears the display, and ends the conversation if there is one. -/
def close (c : Conversation) : Conversation :=
  let c := c.record [.cleared]
  match c.active with
  | none => c
  | some _ => { c with active := none }.emit .ended

/-- Makes a dialogue the active one, before anything of it is shown. -/
def begin (c : Conversation) (slot : Slot) (key : String) : Conversation :=
  { c with active := some ⟨slot, key, none⟩, seen := c.seen.mark key }.emit (.started key)

/-- Shows an element of the active dialogue. -/
def present (c : Conversation) (a : Active) (index : Nat) (e : Element) : Conversation :=
  { c with active := some { a with index := some index } }.record [.shown e]

/-! ### Conditions -/

/-- Whether a condition holds. One that cannot be evaluated does not, which is worth a notice. -/
def holds (env : Environment) (condition : String) : Bool × List Notice :=
  if Text.allBlank condition.toList then (true, [])
  else
    match (Expr.parse condition).bind (Expr.evaluateBool env) with
    | .ok b => (b, [])
    | .error cause => (false, [.conditionFailed cause])

/-- The target of the first exit whose condition holds, and the notices on the way to it. -/
def selectExit (env : Environment) : List Exit → Option Target × List Notice
  | [] => (none, [])
  | e :: exits =>
      match holds env e.condition with
      | (true, notices) => (some e.target, notices)
      | (false, notices) =>
          let (target, more) := selectExit env exits
          (target, notices ++ more)

/-- An exit without a condition is always open. -/
theorem holds_of_isUnconditional {e : Exit} (h : e.isUnconditional = true) (env : Environment) :
    holds env e.condition = (true, []) :=
  if_pos h

/-- The first open exit is selected, with the notices of those before it. -/
theorem selectExit_append {env : Environment} {before after : List Exit} {e : Exit}
    (hbefore : (selectExit env before).1 = none) (he : (holds env e.condition).1 = true) :
    selectExit env (before ++ e :: after) =
      (some e.target, (selectExit env before).2 ++ (holds env e.condition).2) := by
  induction before with
  | nil =>
      rcases hcondition : holds env e.condition with ⟨_ | _, notices⟩
      · simp [hcondition] at he
      · simp [selectExit, hcondition]
  | cons first before ih =>
      rcases hcondition : holds env first.condition with ⟨_ | _, notices⟩
      · simp only [selectExit, hcondition] at hbefore
        simp [selectExit, hcondition, ih hbefore]
      · simp [selectExit, hcondition] at hbefore

/-- Behind an open exit none is looked at. -/
theorem selectExit_append_of_some {env : Environment} {before : List Exit} {target : Target}
    (h : (selectExit env before).1 = some target) (after : List Exit) :
    selectExit env (before ++ after) = selectExit env before := by
  induction before with
  | nil => cases h
  | cons first before ih =>
      rcases hcondition : holds env first.condition with ⟨_ | _, notices⟩
      · simp only [selectExit, hcondition] at h
        simp [selectExit, hcondition, ih h]
      · simp [selectExit, hcondition]

theorem selectExit_eq_none_iff {env : Environment} {exits : List Exit} :
    (selectExit env exits).1 = none ↔ ∀ e ∈ exits, (holds env e.condition).1 = false := by
  induction exits with
  | nil => simp [selectExit]
  | cons e exits ih =>
      rcases hcondition : holds env e.condition with ⟨_ | _, notices⟩ <;>
        simp [selectExit, hcondition, ih]

end Conversation

end Parley
