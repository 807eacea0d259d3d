import Parley.Expr.Error
import Parley.Script.Line
import Parley.Script.Statement

/-!
# Diagnostics

What is wrong with a script, but does not keep the rest of it from being read. An error means
that code or a transition was dropped, a warning that something looks wrong or has no effect.
-/

namespace Parley

/-- How grave a diagnostic is. -/
inductive Severity where
  | error
  | warning
deriving DecidableEq, Repr

def Severity.text : Severity → String
  | .error => "error"
  | .warning => "warning"

/-- All that can be wrong with a part of a script, with the texts that the message quotes. -/
inductive Problem where
  | headerWithoutKey
  | unknownSpeaker (name : String)
  | openFlagList
  | unknownFlag (name : String)
  | noDestination
  | badCondition (condition : String) (cause : ExprError)
  | badStatement (fault : StatementFault)
  | unterminatedStatement (rest : String)
  | noExpression (name : String)
  | badExpression (source : String) (cause : ExprError)
  | choiceWithoutArrow
  | incompleteChoice
  | choiceWithoutElement
  | openCode
  | openComment
deriving DecidableEq

namespace Problem

/-- A transition or a statement that is dropped is an error. So is a block of code that never ends,
since it swallows all lines below. A choice that is dropped is no more than a warning. -/
def severity : Problem → Severity
  | .noDestination | .badStatement _ | .unterminatedStatement _ | .openCode => .error
  | _ => .warning

/-- A problem in words. -/
def message : Problem → String
  | .headerWithoutKey => "dialogue header without a key"
  | .unknownSpeaker name => s!"unknown speaker \"{name}\""
  | .openFlagList => "flag list is missing '\x7d'"
  | .unknownFlag name => s!"unknown dialogue flag \"{name}\""
  | .noDestination => "transition has no destination key"
  | .badCondition condition cause =>
      s!"unparseable condition \"{condition}\": {cause.message}"
  | .badStatement fault => fault.message
  | .unterminatedStatement rest => s!"statement \"{rest}\" must end with ';'"
  | .noExpression name => s!"assignment to \"{name}\" has no expression"
  | .badExpression source cause => s!"unparseable expression \"{source}\": {cause.message}"
  | .choiceWithoutArrow => "option is missing '->'"
  | .incompleteChoice => "option needs both text and a destination key"
  | .choiceWithoutElement => "option without a dialogue element"
  | .openCode => "code block is never closed with '\x7d'"
  | .openComment => "block comment is never closed"

/-- What became of the construct, where that is not plain from the message. -/
def label : Problem → Option String
  | .headerWithoutKey => some "header ignored"
  | .unknownFlag _ => some "flag ignored"
  | .noDestination => some "transition skipped"
  | .badStatement _ | .unterminatedStatement _ => some "statement skipped"
  | .choiceWithoutArrow | .incompleteChoice | .choiceWithoutElement => some "option dropped"
  | .openCode => some "code block dropped"
  | _ => none

end Problem

/-- A problem and where in the source it is. -/
structure Diagnostic where
  place : Place
  problem : Problem
deriving DecidableEq

namespace Diagnostic

def severity (d : Diagnostic) : Severity := d.problem.severity

def message (d : Diagnostic) : String := d.problem.message

def isError (d : Diagnostic) : Bool := d.severity == .error

/-- One line for the log: how grave, where, and what. -/
def text (d : Diagnostic) : String :=
  s!"{d.severity.text}: line {d.place.line}: {d.message}"

end Diagnostic

/-- What may not stand before the first dialogue. -/
inductive Content where
  | text
  | flags
  | transition
  | code
deriving DecidableEq, Repr

/-- The content as an error names it. -/
def Content.name : Content → String
  | .text => "dialogue text"
  | .flags => "flags"
  | .transition => "transition"
  | .code => "code block"

/-- Why a script, or a list of dialogues, is refused as a whole. -/
inductive ScriptError where
  | orphan (content : Content) (line : Nat)
  | duplicateKey (key : String) (line : Nat)
deriving DecidableEq, Repr

def ScriptError.message : ScriptError → String
  | .orphan content line => s!"line {line}: {content.name} outside of any dialogue"
  | .duplicateKey key line => s!"line {line}: duplicate dialogue key \"{key}\""

end Parley
