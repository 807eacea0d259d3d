import Parley.Binary.Integer
import Parley.Expr.Parser
import Parley.Expr.Variables

/-!
# Evaluation

An expression evaluates to a value or to the first error met from left to right. `&&` and `||`
leave their right side alone when the left one decides. The type of an expression can be told
without evaluating it, as long as every name in it is known.
-/

namespace Parley

namespace Value

/-- Arithmetic takes truth values for numbers, but never a text. -/
def toOperand? : Value → Option Float
  | .string _ => none
  | v => v.toNumber?

/-- Floating-point numbers compare unless one of them is not a number. -/
def compareFloats? (x y : Float) : Option Ordering :=
  if x < y then some .lt else if x == y then some .eq else if y < x then some .gt else none

/-- Texts compare with texts, by code points; numbers and truth values with each other. -/
def compare? : Value → Value → Option Ordering
  | .string a, .string b => some (compare a b)
  | l, r =>
      match l.toOperand?, r.toOperand? with
      | some x, some y => compareFloats? x y
      | _, _ => none

/-- A text equals no value of another type; a truth value equals the number it counts as. -/
def equals : Value → Value → Bool
  | .string a, .string b => a == b
  | .bool a, .bool b => a == b
  | l, r =>
      match l.toOperand?, r.toOperand? with
      | some x, some y => x == y
      | _, _ => false

end Value

namespace BinaryOp

def mismatch (op : BinaryOp) (l r : Value) : ExprError :=
  .typeMismatch op.symbol l.dataType r.dataType

/-- What the order of its operands makes of a comparison. -/
def holds : BinaryOp → Ordering → Bool
  | .less, o => o.isLT
  | .lessEqual, o => o.isLE
  | .greater, o => o.isGT
  | _, o => o.isGE

/-- Arithmetic on numbers. Nothing is divided by zero, whichever sign the zero has; the remainder
has the sign of the left side. -/
def arithmetic : BinaryOp → Float → Float → Except ExprError Float
  | .add, x, y => .ok (x + y)
  | .sub, x, y => .ok (x - y)
  | .mul, x, y => .ok (x * y)
  | .div, x, y => if y == 0.0 then .error .divisionByZero else .ok (x / y)
  | _, x, y => if y == 0.0 then .error .divisionByZero else .ok (Binary.remainder x y)

/-- Arithmetic on values that are to count as numbers. -/
def calculate (op : BinaryOp) (l r : Value) : Except ExprError Value :=
  match l.toOperand?, r.toOperand? with
  | some x, some y => (op.arithmetic x y).map .number
  | _, _ => .error (op.mismatch l r)

def isText : Value → Bool
  | .string _ => true
  | _ => false

/-- A binary operator on values that are both known. Adding to a text appends. -/
def apply (op : BinaryOp) (l r : Value) : Except ExprError Value :=
  match op with
  | .or => .ok (.bool (l.toBool || r.toBool))
  | .and => .ok (.bool (l.toBool && r.toBool))
  | .equal => .ok (.bool (l.equals r))
  | .notEqual => .ok (.bool (!l.equals r))
  | .less | .lessEqual | .greater | .greaterEqual =>
      match l.compare? r with
      | some order => .ok (.bool (op.holds order))
      | none => .error (op.mismatch l r)
  | .add =>
      if isText l || isText r then .ok (.string (l.text ++ r.text)) else op.calculate l r
  | .sub | .mul | .div | .rem => op.calculate l r

/-- The type of a result whose operands have these types, both known. -/
def resultType (op : BinaryOp) (l r : DataType) : DataType :=
  match op with
  | .or | .and | .equal | .notEqual | .less | .lessEqual | .greater | .greaterEqual => .bool
  | .add => if l = .string ∨ r = .string then .string else .number
  | .sub | .mul | .div | .rem => .number

end BinaryOp

namespace UnaryOp

def apply : UnaryOp → Value → Except ExprError Value
  | .not, v => .ok (.bool (!v.toBool))
  | .neg, v =>
      match v.toOperand? with
      | some x => .ok (.number (-x))
      | none => .error (.typeMismatch "-" v.dataType v.dataType)

def resultType : UnaryOp → DataType → DataType
  | _, .undefined => .undefined
  | .not, _ => .bool
  | .neg, .string => .undefined
  | .neg, _ => .number

end UnaryOp

namespace Expr

/-- The value of an expression. Both sides of an operator are evaluated, left before right, except
where the left side of `&&` or `||` decides. -/
def evaluate (env : Environment) : Expr → Except ExprError Value
  | .literal v => .ok v
  | .variable name =>
      match env name with
      | some v => .ok v
      | none => .error (.undefinedVariable name)
  | .unary op inner =>
      match inner.evaluate env with
      | .ok v => op.apply v
      | .error e => .error e
  | .binary op lhs rhs =>
      match lhs.evaluate env with
      | .error e => .error e
      | .ok l =>
          if op = .and ∧ l.toBool = false then .ok (.bool false)
          else if op = .or ∧ l.toBool = true then .ok (.bool true)
          else
            match rhs.evaluate env with
            | .error e => .error e
            | .ok r => op.apply l r

def evaluateBool (env : Environment) (e : Expr) : Except ExprError Bool :=
  (e.evaluate env).map Value.toBool

/-- The value as a number, where it is one or reads as one. -/
def evaluateNumber (env : Environment) (e : Expr) : Except ExprError Float :=
  match e.evaluate env with
  | .error err => .error err
  | .ok v =>
      match v.toNumber? with
      | some x => .ok x
      | none => .error (.conversion .number v.dataType)

def evaluateText (env : Environment) (e : Expr) : Except ExprError String :=
  (e.evaluate env).map Value.text

/-- The type of the result, as far as the types of the variables tell it. -/
def dataType (env : Environment) : Expr → DataType
  | .literal v => v.dataType
  | .variable name =>
      match env name with
      | some v => v.dataType
      | none => .undefined
  | .unary op inner => op.resultType (inner.dataType env)
  | .binary op lhs rhs =>
      let l := lhs.dataType env
      let r := rhs.dataType env
      if l = .undefined ∨ r = .undefined then .undefined else op.resultType l r

end Expr

end Parley
