import Parley.Conversation.Host
import Parley.Decimal.Read
import Parley.Terminal.Output
import Parley.Terminal.Screen

/-!
# Playing a dialogue

A dialogue is played on a terminal: each line that the player types takes one of the choices on
the screen, or goes on where there are none. The session ends with the conversation, or when
there are no lines left.
-/

namespace Parley

namespace Play

/-! ### Commands -/

/-- The commands that a script may call while it is played. -/
def commands : CommandTable :=
  let text (name : String) : Param := ⟨name, .string, none⟩
  let table : CommandTable := {}
  table
    |>.register "print" ⟨[text "text"], fun _ vars => { vars }⟩
    |>.register "start"
      ⟨[text "key"], fun args vars =>
        match args with
        | .string key :: _ => { vars, requests := [.start key] }
        | _ => { vars }⟩
    |>.register "end" ⟨[], fun _ vars => { vars, requests := [.finish] }⟩

/-! ### Settings -/

/-- Why a word of the command line does not set a variable. -/
inductive SettingFault where
  | noValue (text : String)
  | noName (text : String)
deriving DecidableEq, Repr

def SettingFault.message : SettingFault → String
  | .noValue text => s!"expected NAME=VALUE, got \"{text}\""
  | .noName text => s!"missing variable name in \"{text}\""

/-- A variable and its value, with the first equals sign between them. -/
def setting (text : String) : Except SettingFault (String × Value) :=
  match Text.breakOn? ['='] text.toList with
  | none => .error (.noValue text)
  | some (name, value) =>
      match Text.trim name with
      | [] => .error (.noName text)
      | name => .ok (String.ofList name, Value.ofLiteral (String.ofList value))

/-- Sets variables in order. The first that is malformed stops them all. -/
def applySettings (vars : Variables) : List String → Except SettingFault Variables
  | [] => .ok vars
  | text :: texts =>
      match setting text with
      | .error fault => .error fault
      | .ok (name, value) => applySettings (vars.set name value) texts

/-! ### Answers -/

/-- What a typed line means. -/
inductive Answer where
  | goOn
  | choose (selected : Nat)
  | unclear
deriving DecidableEq, Repr

/-- Choices are typed by their number, counted from one. Without choices every line goes on. -/
def Answer.read (choices : Nat) (line : String) : Answer :=
  if choices = 0 then .goOn
  else
    match Decimal.natural? (Text.trim line.toList) with
    | some (n + 1) => if n < choices then .choose n else .unclear
    | _ => .unclear

end Play

/-! ### Sessions -/

/-- A conversation on a terminal: all that it has written, and how the session ends. -/
structure Session where
  talk : Conversation
  /-- All that is on the screen. -/
  screen : String := ""
  cursor : Screen.Cursor := {}
  ending : Ending := .done

namespace Session

def print (s : Session) (text : String) : Session :=
  { s with screen := s.screen ++ text }

/-- The session after a call of the host, with what the call did on the screen. -/
def follow {α : Type} (s : Session) (r : Conversation.Result α) : Session :=
  let (acts, talk) := r.talk.takeJournal
  let written := Screen.ofActs acts
  { talk
    screen := s.screen ++ written.text
    cursor := acts.foldl Screen.Cursor.after s.cursor
    ending :=
      match written.fault, r.result with
      | some miscut, _ => .crashed miscut.message
      | none, .ok _ => s.ending
      | none, .error fault => .failed fault.message }

/-- What a call did is on the screen, so the journal is empty again. -/
@[simp] theorem follow_talk {α : Type} (s : Session) (r : Conversation.Result α) :
    (s.follow r).talk = { r.talk with journal := [] } :=
  rfl

/-- Whether the player is still asked. -/
def isOpen (s : Session) : Bool :=
  s.ending = .done && s.talk.isTalking

/-- The choices of the element on show. -/
def choices (s : Session) : List Choice :=
  (s.talk.currentElement.map Element.choices).getD []

/-- What the player is asked. -/
def prompt (s : Session) : String :=
  match s.choices.length with
  | 0 => if s.talk.hasMoreText then "  [enter] continue\n" else "  [enter] close\n"
  | n => s!"  choose 1-{n}: "

def select (s : Session) (selected : Nat) : Session :=
  { s with cursor := { s.cursor with selected } }

/-- Goes on with the choice that the cursor is on. -/
def confirm (s : Session) : Session :=
  s.follow (s.talk.confirm { selected := s.cursor.selected })

/-- Does what a typed line means. A line that is not understood changes nothing but the screen. -/
def answer (s : Session) (line : String) : Session :=
  match Play.Answer.read s.choices.length line with
  | .goOn => s.confirm
  | .choose selected => (s.select selected).confirm
  | .unclear => s.print s!"  please enter a number between 1 and {s.choices.length}\n"

/-- Every line is asked for, and answered. -/
def converse (s : Session) : List String → Session
  | [] => if s.isOpen then s.print s.prompt else s
  | line :: lines => if s.isOpen then ((s.print s.prompt).answer line).converse lines else s

/-- A session that starts a dialogue. It fails if nothing happens at all. -/
def start (talk : Conversation) (key : String) (file : String) : Session :=
  let r := talk.start key
  let s := ({ talk } : Session).follow r
  if s.ending = .done && (r.result matches .ok false) && s.talk.events.isEmpty then
    { s with ending := .failed s!"no dialogue \"{key}\" in {file}" }
  else s

/-- The variables with their values, in the order of their names. -/
def variableLines (vars : Variables) : String :=
  if vars.isEmpty then ""
  else "\n" ++ String.join (vars.toList.map fun (name, v) => s!"  {name} = {v.text}\n")

/-- Closes the conversation and shows what the variables have become, unless the session broke
off. -/
def finish (s : Session) : Session :=
  if s.ending = .done then
    let talk := s.talk.close
    ({ s with talk }).print ("\n  (end of conversation)\n" ++ variableLines talk.vars)
  else s

/-- The session after all that the player types. -/
def play (s : Session) (input : List String) : Session :=
  (s.converse input).finish

end Session

end Parley
