import Parley.Expr.Token
import Parley.Text.Span
import Parley.Text.Quoted

/-!
# What can be wrong with an expression
-/

namespace Parley

open Text (Span)

/-- What may stand where a token was refused. -/
inductive Expected where
  | operand
  | operator (inParens : Bool)
deriving DecidableEq, Repr

/-- All that may stand at a place, in one fixed order. -/
def Expected.text : Expected → String
  | .operand => "'!', '-', value, or '('"
  | .operator inParens =>
      let closing := if inParens then "')'" else "end of input"
      "'*', '/', '%', '+', '-', '<=', '>=', '<', '>', '==', '!=', '&&', '||', or " ++ closing

/-- What is wrong at the place where a source stops being an expression. -/
inductive SyntaxFault where
  /-- Characters that begin no token. -/
  | strayText (text : String)
  /-- A token out of place, or the end of the source when there is none. -/
  | outOfPlace (found : Option Token) (expected : Expected)
deriving DecidableEq

def SyntaxFault.message : SyntaxFault → String
  | .strayText text => "unexpected character: " ++ String.ofList (Text.quoted text.toList)
  | .outOfPlace found expected =>
      let shown :=
        match found with
        | some token => s!"'{token.text}'"
        | none => "end of input"
      s!"found {shown} expected {expected.text}"

/-- Why a source gives no value: it is no expression, or its evaluation fails. -/
inductive ExprError where
  | empty
  | malformed (span : Span) (fault : SyntaxFault)
  | undefinedVariable (name : String)
  | typeMismatch (op : String) (lhs rhs : DataType)
  | conversion (expected found : DataType)
  | divisionByZero
deriving DecidableEq

/-- An error in words. Positions are given in bytes. -/
def ExprError.message : ExprError → String
  | .empty => "empty expression"
  | .malformed span fault =>
      s!"syntax error at {span.start}..{span.stop}: {fault.message}"
  | .undefinedVariable name => s!"undefined variable: {name}"
  | .typeMismatch op lhs rhs => s!"cannot apply '{op}' to {lhs.text} and {rhs.text}"
  | .conversion expected found => s!"expected {expected.text}, found {found.text}"
  | .divisionByZero => "division by zero"

end Parley
