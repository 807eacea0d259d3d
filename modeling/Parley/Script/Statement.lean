import Parley.Expr.Lexer
import Parley.Script.Graph
import Parley.Script.Nesting
import Parley.Text.Split

/-!
# Statements of inline code

A statement with an equals sign anywhere is an assignment, split at the first one; any other is
a call. The arguments are kept as source and looked at later.
-/

namespace Parley

/-- Why a piece of code is no statement, with the text that the message quotes. -/
inductive StatementFault where
  | badTarget (name : String)
  | noOpening (statement : String)
  | noClosing (statement : String)
  | badFunction (name : String)
  | unbalanced (statement : String)
  | emptyArgument (name : String)
deriving DecidableEq, Repr

def StatementFault.message : StatementFault → String
  | .badTarget name => s!"invalid assignment target \"{name}\""
  | .noOpening statement => s!"expected '(' in function call \"{statement}\""
  | .noClosing statement => s!"expected ')' at the end of \"{statement}\""
  | .badFunction name => s!"invalid function name \"{name}\""
  | .unbalanced statement => s!"mismatched parentheses in \"{statement}\""
  | .emptyArgument name => s!"empty argument in call to \"{name}\""

namespace Statement

open Text (trim allBlank breakOn? dropLast?)

/-- An assignment from the texts around the equals sign. The value is not looked at, and may be
missing. -/
def readAssignment (target value : List Char) : Except StatementFault Statement :=
  let name := trim target
  let source := trim value
  if !Lexer.isName name then .error (.badTarget (String.ofList name))
  else
    .ok ⟨.assignment, String.ofList name,
      if source.isEmpty then [] else [String.ofList source]⟩

/-- The arguments between the parentheses of a call; blank parentheses hold none. -/
def readArguments (name : String) (inner : List Char) : Except StatementFault Statement :=
  if allBlank inner then .ok (.call name [])
  else
    let args := (splitTopLevel ',' inner).map trim
    if args.any List.isEmpty then .error (.emptyArgument name)
    else .ok (.call name (args.map String.ofList))

/-- A call: a name, and what stands between the first parenthesis and the one that ends the
statement. -/
def readCall (cs : List Char) : Except StatementFault Statement :=
  match breakOn? ['('] cs with
  | none => .error (.noOpening (String.ofList cs))
  | some (before, after) =>
      match dropLast? ')' after with
      | none => .error (.noClosing (String.ofList cs))
      | some inner =>
          let name := trim before
          if !Lexer.isName name then .error (.badFunction (String.ofList name))
          else if !balanced inner then .error (.unbalanced (String.ofList cs))
          else readArguments (String.ofList name) inner

/-- Reads a statement, without the semicolon that ends it. -/
def read (cs : List Char) : Except StatementFault Statement :=
  let cs := trim cs
  match breakOn? ['='] cs with
  | some (target, value) => readAssignment target value
  | none => readCall cs

/-- The written form, without the semicolon. -/
def write (s : Statement) : List Char :=
  match s.kind with
  | .assignment =>
      match s.args with
      | [] => s.name.toList ++ [' ', '=']
      | value :: _ => s.name.toList ++ [' ', '=', ' '] ++ value.toList
  | .call =>
      s.name.toList ++ '(' :: Text.joinWith [',', ' '] (s.args.map String.toList) ++ [')']

end Statement

end Parley
