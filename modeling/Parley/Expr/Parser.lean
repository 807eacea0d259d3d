import Parley.Expr.Error
import Parley.Expr.Lexer

/-!
# Parsing

Tokens are read one by one into a state that holds the constructs still open: unary operators
waiting for their operand, binary operators waiting for their right side, and parentheses. A
token that no valid expression can have at its place is refused at once.

## Implementation notes

Open constructs are a stack, so that the parser recurses on the tokens alone. A binary operator
first closes the open operators that bind at least as tightly, which groups equal levels to the
left. Unary operators bind tightest and are applied as soon as their operand is complete.
-/

namespace Parley

open Text (Span Spanned)

namespace Parser

/-- A construct that waits for an operand to its right, or for its closing parenthesis. -/
inductive Frame where
  | unary (op : UnaryOp)
  | binary (lhs : Expr) (op : BinaryOp)
  | group
deriving DecidableEq

/-- What has been read of an expression. -/
structure State where
  /-- The open constructs, innermost first. -/
  frames : List Frame := []
  /-- The operand just completed; an operator is due if there is one, else an operand. -/
  operand : Option Expr := none

/-- An operand that is complete is taken by the unary operators in front of it. -/
def State.complete : List Frame → Expr → State
  | .unary op :: frames, e => complete frames (.unary op e)
  | frames, e => ⟨frames, some e⟩

/-- Closes the open binary operators of the given level or tighter, up to the nearest
parenthesis. -/
def settle (level : Nat) : List Frame → Expr → List Frame × Expr
  | .binary lhs op :: frames, e =>
      if level ≤ op.level then settle level frames (.binary op lhs e)
      else (.binary lhs op :: frames, e)
  | frames, e => (frames, e)

/-- Reads a token where an operand is due. -/
def State.readOperand? (frames : List Frame) : Token → Option State
  | .not => some ⟨.unary .not :: frames, none⟩
  | .operator .sub => some ⟨.unary .neg :: frames, none⟩
  | .openParen => some ⟨.group :: frames, none⟩
  | .bool b => some (complete frames (.literal (.bool b)))
  | .number x => some (complete frames (.literal (.number x)))
  | .string s => some (complete frames (.literal (.string s)))
  | .name s => some (complete frames (.variable s))
  | _ => none

/-- Reads a token where an operator is due. -/
def State.readOperator? (frames : List Frame) (e : Expr) : Token → Option State
  | .operator op =>
      let (frames, lhs) := settle op.level frames e
      some ⟨.binary lhs op :: frames, none⟩
  | .closeParen =>
      match settle 0 frames e with
      | (.group :: frames, e) => some (complete frames e)
      | _ => none
  | _ => none

/-- Reads one token, if an expression can go on with it. -/
def State.step? (s : State) (t : Token) : Option State :=
  match s.operand with
  | none => readOperand? s.frames t
  | some e => readOperator? s.frames e t

/-- The expression read, if nothing is left open. -/
def State.finish? (s : State) : Option Expr :=
  match s.operand with
  | none => none
  | some e =>
      match settle 0 s.frames e with
      | ([], e) => some e
      | _ => none

/-- What an expression could go on with. -/
def State.expected (s : State) : Expected :=
  match s.operand with
  | none => .operand
  | some _ => .operator (s.frames.contains .group)

/-- Reads tokens to the end. `eoi` is where the end is reported. -/
def run (eoi : Span) (s : State) : List (Spanned Token) → Except ExprError Expr
  | [] =>
      match s.finish? with
      | some e => .ok e
      | none => .error (.malformed eoi (.outOfPlace none s.expected))
  | t :: ts =>
      match s.step? t.item with
      | some next => run eoi next ts
      | none => .error (.malformed t.span (.outOfPlace (some t.item) s.expected))

end Parser

/-- Stray text is reported before any token is looked at. The end of the source is the end of
the untrimmed text. -/
def Expr.parse (source : String) : Except ExprError Expr :=
  let cs := source.toList
  if Text.allBlank cs then .error .empty
  else
    let lexemes := Lexer.lexemes source
    match Lexer.strays lexemes with
    | stray :: _ => .error (.malformed stray.span (.strayText stray.item))
    | [] =>
        let stop := Text.byteLength cs
        Parser.run ⟨stop, stop⟩ {} (Lexer.tokens lexemes)

/-- An expression together with the text it was read from. -/
structure Expression where
  source : String
  root : Expr
deriving DecidableEq

/-- Reads an expression and keeps its source, without the blanks around it. -/
def Expression.parse (source : String) : Except ExprError Expression :=
  (Expr.parse source).map fun root => ⟨String.ofList (Text.trim source.toList), root⟩

end Parley
