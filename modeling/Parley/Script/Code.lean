import Parley.Expr.Parser
import Parley.Script.Diagnostic

/-!
# Code blocks

The statements of a block end in semicolons, several to a line if need be; none reaches over a
line end. A statement that cannot be read is dropped, and an argument that cannot be parsed is
kept and reported.
-/

namespace Parley.Code

open Text (trim)

/-- What is reported of an expression in a script, unless it can be parsed. -/
def expressionProblems (source : String) : List Problem :=
  match Expr.parse source with
  | .ok _ => []
  | .error cause => [.badExpression source cause]

/-- An assignment must have an expression, and every expression must be one. -/
def statementProblems (s : Statement) : List Problem :=
  if s.kind = .assignment ∧ s.args = [] then [.noExpression s.name]
  else s.args.flatMap expressionProblems

/-- The statement a piece of a line holds, if any, and what is wrong with it. -/
def readPiece (piece : List Char) : Option Statement × List Problem :=
  match trim piece with
  | [] => (none, [])
  | c :: cs =>
      match Statement.read (c :: cs) with
      | .ok s => (some s, statementProblems s)
      | .error fault => (none, [.badStatement fault])

/-- What follows the last semicolon of a line must be blank. -/
def restProblems (rest : List Char) : List Problem :=
  match trim rest with
  | [] => []
  | c :: cs => [.unterminatedStatement (String.ofList (c :: cs))]

/-- The statements of a line that can be read. What follows the last semicolon is none. -/
def lineStatements (line : Line) : List Statement :=
  (splitTopLevel ';' line.text).dropLast.filterMap fun piece => (readPiece piece).1

/-- What is wrong with the pieces of a line, in order. -/
def lineProblems (line : Line) : List Problem :=
  let pieces := splitTopLevel ';' line.text
  pieces.dropLast.flatMap (fun piece => (readPiece piece).2) ++
    restProblems (pieces.getLast?.getD [])

/-- The statements of a block, in order. -/
def statements (body : List Line) : List Statement :=
  body.flatMap lineStatements

def diagnostics (body : List Line) : List Diagnostic :=
  body.flatMap fun line => (lineProblems line).map fun problem => ⟨line.place, problem⟩

end Parley.Code
