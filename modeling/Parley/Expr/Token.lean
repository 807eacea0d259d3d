import Parley.Expr.Basic

/-!
# Tokens of the expression language

The words `or`, `and` and `not` are the same tokens as their symbols.
-/

namespace Parley

/-- A token with its meaning. Several spellings may give the same one. -/
inductive Token where
  | openParen
  | closeParen
  | not
  /-- Binary and unary minus alike. -/
  | operator (op : BinaryOp)
  | bool (b : Bool)
  | number (x : Float)
  | string (s : String)
  | name (s : String)
deriving DecidableEq

/-- The form of a token in messages: one spelling each, and double quotes around every text. -/
def Token.text : Token → String
  | .openParen => "("
  | .closeParen => ")"
  | .not => "!"
  | .operator o => o.symbol
  | .bool b => if b then "true" else "false"
  | .number x => Decimal.text x
  | .string s => s!"\"{s}\""
  | .name s => s

end Parley
