import Parley.Expr.Eval

/-!
# Commands

Inline code calls commands by name. A command declares its parameters; the arguments are
evaluated and checked before its handler runs. The handler sees the arguments and the variables;
it may write variables and ask for a dialogue to be started or the conversation to be ended.
-/

namespace Parley

/-- The kinds of arguments that a parameter can be declared for. -/
inductive ParamKind where
  | bool
  | float
  | int
  | string
deriving DecidableEq, Repr

def ParamKind.text : ParamKind → String
  | .bool => "bool"
  | .float => "float"
  | .int => "int"
  | .string => "string"

/-- An argument as a handler sees it. -/
inductive Argument where
  | bool (b : Bool)
  | float (x : Float)
  | int (n : Int64)
  | string (s : String)
deriving DecidableEq

/-- The value a variable takes from an argument. -/
def Argument.toValue : Argument → Value
  | .bool b => .bool b
  | .float x => .number x
  | .int n => .number n.toFloat
  | .string s => .string s

/-- A declared parameter. One with a default may be left out, though the default need not be of
the declared kind. -/
structure Param where
  name : String
  kind : ParamKind
  default : Option Argument := none
deriving DecidableEq

/-- What a handler may ask of the conversation it is called from. -/
inductive Request where
  | start (key : String)
  | finish
deriving DecidableEq, Repr

/-- Why a call did not succeed. Arguments are counted from zero. `failed` is for a handler that has
only words for what went wrong. -/
inductive CommandError where
  | unknownCommand (name : String)
  | tooFewArguments (name : String) (expected found : Nat)
  | tooManyArguments (name : String) (expected found : Nat)
  | badExpression (name : String) (index : Nat) (cause : ExprError)
  | argumentType (name : String) (index : Nat) (expected : ParamKind) (found : DataType)
  | failed (message : String)
deriving DecidableEq

/-- An error in words, as the notices of a conversation give it. -/
def CommandError.message : CommandError → String
  | .unknownCommand name => s!"unknown command \"{name}\""
  | .tooFewArguments name expected found =>
      s!"command \"{name}\" needs at least {expected} argument(s), got {found}"
  | .tooManyArguments name expected found =>
      s!"command \"{name}\" takes at most {expected} argument(s), got {found}"
  | .badExpression name index cause => s!"argument {index} of \"{name}\": {cause.message}"
  | .argumentType name index expected found =>
      s!"argument {index} of \"{name}\" must be {expected.text}, found {found.text}"
  | .failed message => message

/-- A handler may tell of its failure in a message alone. -/
instance : Coe String CommandError :=
  ⟨.failed⟩

/-- What a handler leaves behind, whether or not it fails. It may fail for any of the reasons a
call can be refused for. -/
structure Reply where
  vars : Variables
  requests : List Request := []
  failure : Option CommandError := none

/-- A command by its parameters and its handler. The handler is only called with arguments that fit
the parameters. -/
structure Command where
  params : List Param
  handler : List Argument → Variables → Reply

/-- An argument of the declared kind made from a value of just that type. A number for an integer
loses what stands behind the point. -/
def ParamKind.coerce? : ParamKind → Value → Option Argument
  | .bool, .bool b => some (.bool b)
  | .float, .number x => some (.float x)
  | .int, .number x => some (.int (Binary.toInt64 x))
  | .string, .string s => some (.string s)
  | _, _ => none

namespace Command

/-- How many arguments a call must have at least: the parameters before the first default. -/
def required (c : Command) : Nat :=
  (c.params.takeWhile fun p => p.default.isNone).length

/-- One argument from the source of its expression: the source is read, evaluated, and has to give a
value of the declared kind. -/
def argument (name : String) (index : Nat) (kind : ParamKind) (env : Environment)
    (source : String) : Except CommandError Argument :=
  match (Expr.parse source).bind (Expr.evaluate env) with
  | .error cause => .error (.badExpression name index cause)
  | .ok v =>
      match kind.coerce? v with
      | some arg => .ok arg
      | none => .error (.argumentType name index kind v.dataType)

/-- The arguments for the parameters from `index` on. `found` is the number of all sources. -/
def argumentsFrom (name : String) (env : Environment) (found index : Nat) :
    List Param → List String → Except CommandError (List Argument)
  | [], _ => .ok []
  | p :: ps, source :: sources =>
      match argument name index p.kind env source with
      | .error error => .error error
      | .ok arg => (argumentsFrom name env found (index + 1) ps sources).map (arg :: ·)
  | p :: ps, [] =>
      match p.default with
      | none => .error (.tooFewArguments name (index + 1) found)
      | some arg => (argumentsFrom name env found (index + 1) ps []).map (arg :: ·)

/-- The arguments of a call, once their number fits the parameters. Too few and too many are told
apart before any of them is evaluated. -/
def arguments (c : Command) (name : String) (sources : List String) (env : Environment) :
    Except CommandError (List Argument) :=
  let found := sources.length
  if found < c.required then .error (.tooFewArguments name c.required found)
  else if c.params.length < found then
    .error (.tooManyArguments name c.params.length found)
  else argumentsFrom name env found 0 c.params sources

end Command

/-- The commands that a conversation knows, by name. -/
structure CommandTable where
  entries : Std.TreeMap String Command := {}

namespace CommandTable

/-- A command registered again replaces the one before. -/
def register (t : CommandTable) (name : String) (c : Command) : CommandTable :=
  ⟨t.entries.insert name c⟩

def find? (t : CommandTable) (name : String) : Option Command :=
  t.entries[name]?

def contains (t : CommandTable) (name : String) : Bool :=
  t.entries.contains name

/-- The commands in the order of their names. -/
def toList (t : CommandTable) : List (String × Command) :=
  t.entries.toList

def names (t : CommandTable) : List String :=
  t.entries.keys

/-- What a call comes to: it is refused before the handler runs, or the handler ran with some
arguments and replied. -/
inductive Outcome where
  | refused (error : CommandError)
  | handled (args : List Argument) (reply : Reply)

/-- Calls a command by its name. The handler does not run unless the command is known and all
arguments can be had. -/
def call (t : CommandTable) (name : String) (sources : List String) (vars : Variables) :
    Outcome :=
  match t.find? name with
  | none => .refused (.unknownCommand name)
  | some c =>
      match c.arguments name sources vars.lookup with
      | .error error => .refused error
      | .ok args => .handled args (c.handler args vars)

/-- Why the call did not succeed, if it did not. -/
def Outcome.error? : Outcome → Option CommandError
  | .refused error => some error
  | .handled _ reply => reply.failure

end CommandTable

end Parley
