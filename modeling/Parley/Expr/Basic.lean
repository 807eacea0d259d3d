import Parley.Expr.Value

/-!
# Expression trees
-/

namespace Parley

inductive UnaryOp where
  | not
  | neg
deriving DecidableEq, Repr

/-- The binary operators, in the order in which they bind, weakest first. -/
inductive BinaryOp where
  | or
  | and
  | equal
  | notEqual
  | less
  | lessEqual
  | greater
  | greaterEqual
  | add
  | sub
  | mul
  | div
  | rem
deriving DecidableEq, Repr

namespace BinaryOp

/-- The one spelling that messages give an operator. Some may be typed as a word, too. -/
def symbol : BinaryOp → String
  | .or => "||"
  | .and => "&&"
  | .equal => "=="
  | .notEqual => "!="
  | .less => "<"
  | .lessEqual => "<="
  | .greater => ">"
  | .greaterEqual => ">="
  | .add => "+"
  | .sub => "-"
  | .mul => "*"
  | .div => "/"
  | .rem => "%"

/-- How tightly an operator binds. All operators of one level group to the left. -/
def level : BinaryOp → Nat
  | .or => 1
  | .and => 2
  | .equal | .notEqual => 3
  | .less | .lessEqual | .greater | .greaterEqual => 4
  | .add | .sub => 5
  | .mul | .div | .rem => 6

end BinaryOp

/-- An expression without its parentheses: the tree says by itself what groups with what. -/
inductive Expr where
  | literal (v : Value)
  | variable (name : String)
  | unary (op : UnaryOp) (inner : Expr)
  | binary (op : BinaryOp) (lhs rhs : Expr)
deriving DecidableEq

/-- The names an expression refers to, in source order and with repeats. -/
def Expr.names : Expr → List String
  | .literal _ => []
  | .variable name => [name]
  | .unary _ inner => inner.names
  | .binary _ lhs rhs => lhs.names ++ rhs.names

end Parley
