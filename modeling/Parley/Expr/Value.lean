import Parley.Decimal.Text
import Parley.Decimal.Read
import Parley.Text.Blank

/-!
# Values

What an expression evaluates to and a variable holds: a truth value, a number or a text. Each
converts to the others by the rules below.
-/

namespace Parley

/-- The type of a value, or of an expression before it is evaluated. -/
inductive DataType where
  | bool
  | number
  | string
  /-- Not known without evaluating, or no type at all. -/
  | undefined
deriving DecidableEq, Repr

def DataType.text : DataType → String
  | .bool => "bool"
  | .number => "number"
  | .string => "string"
  | .undefined => "undefined"

/-- A value of the expression language. -/
inductive Value where
  | bool (b : Bool)
  | number (x : Float)
  | string (s : String)
deriving DecidableEq

namespace Value

def dataType : Value → DataType
  | .bool _ => .bool
  | .number _ => .number
  | .string _ => .string

theorem dataType_ne_undefined (v : Value) : v.dataType ≠ .undefined := by
  cases v <;> simp [dataType]

/-- A number is true unless it is zero, a text unless it is empty. -/
def toBool : Value → Bool
  | .bool b => b
  | .number x => x != 0.0
  | .string s => !s.isEmpty

/-- A text counts as the number it reads as, blanks around it aside. -/
def toNumber? : Value → Option Float
  | .bool b => some (if b then 1.0 else 0.0)
  | .number x => some x
  | .string s => Decimal.read? (Text.trim s.toList)

/-- The text of a value, as it is shown and as adding to a text appends it. -/
def text : Value → String
  | .bool b => if b then "true" else "false"
  | .number x => Decimal.text x
  | .string s => s

/-- A loosely typed literal: a truth value or a number where it reads as one, else a text. -/
def ofLiteral (literal : String) : Value :=
  let word := Text.trim literal.toList
  if word = ['t', 'r', 'u', 'e'] then .bool true
  else if word = ['f', 'a', 'l', 's', 'e'] then .bool false
  else
    match Decimal.read? word with
    | some x => .number x
    | none => .string (String.ofList word)

end Value

end Parley
