import Mathlib.Tactic.Tauto
import Parley.Expr.Eval

/-!
# Types of expressions

The type told of an expression without evaluating it is that of its value. It is missing for two
reasons only, a name that is not known and the negative of a text. An expression that has a type
evaluates to a value of that type, or an operator refuses the values it meets; a name that is not
known is never met.
-/

namespace Parley

namespace BinaryOp

/-- A binary operator has a type whatever stands on its sides. -/
theorem resultType_ne_undefined (op : BinaryOp) (l r : DataType) :
    op.resultType l r ≠ .undefined := by
  cases op with
  | add =>
      simp only [resultType]
      split <;> decide
  | _ => exact DataType.noConfusion

end BinaryOp

/-- A unary operator has no type only over an operand without one, or negating a text. -/
theorem UnaryOp.resultType_eq_undefined_iff (op : UnaryOp) (type : DataType) :
    op.resultType type = .undefined ↔ type = .undefined ∨ op = .neg ∧ type = .string := by
  cases op <;> cases type <;> decide

namespace Expr

/-- One expression stands within another, or is that one. -/
inductive Within (e : Expr) : Expr → Prop
  | self : Within e e
  | unary {op : UnaryOp} {inner : Expr} (h : Within e inner) : Within e (.unary op inner)
  | left {op : BinaryOp} {lhs rhs : Expr} (h : Within e lhs) : Within e (.binary op lhs rhs)
  | right {op : BinaryOp} {lhs rhs : Expr} (h : Within e rhs) : Within e (.binary op lhs rhs)

/-- A name that is not known stands in the expression. -/
def NamesUnknown (env : Environment) (e : Expr) : Prop :=
  ∃ name ∈ e.names, env name = none

/-- The negative of a text stands in the expression. -/
def NegatesText (env : Environment) (e : Expr) : Prop :=
  ∃ inner, Within (.unary .neg inner) e ∧ inner.dataType env = .string

variable {env : Environment}

theorem negatesText_unary_iff {op : UnaryOp} {inner : Expr} :
    NegatesText env (.unary op inner) ↔
      op = .neg ∧ inner.dataType env = .string ∨ NegatesText env inner := by
  constructor
  · rintro ⟨operand, hwithin, htext⟩
    cases hwithin with
    | self => exact .inl ⟨rfl, htext⟩
    | unary h => exact .inr ⟨operand, h, htext⟩
  · rintro (⟨rfl, htext⟩ | ⟨operand, hwithin, htext⟩)
    · exact ⟨inner, .self, htext⟩
    · exact ⟨operand, .unary hwithin, htext⟩

theorem negatesText_binary_iff {op : BinaryOp} {lhs rhs : Expr} :
    NegatesText env (.binary op lhs rhs) ↔ NegatesText env lhs ∨ NegatesText env rhs := by
  constructor
  · rintro ⟨operand, hwithin, htext⟩
    cases hwithin with
    | left h => exact .inl ⟨operand, h, htext⟩
    | right h => exact .inr ⟨operand, h, htext⟩
  · rintro (⟨operand, hwithin, htext⟩ | ⟨operand, hwithin, htext⟩)
    · exact ⟨operand, .left hwithin, htext⟩
    · exact ⟨operand, .right hwithin, htext⟩

theorem namesUnknown_binary_iff {op : BinaryOp} {lhs rhs : Expr} :
    NamesUnknown env (.binary op lhs rhs) ↔ NamesUnknown env lhs ∨ NamesUnknown env rhs := by
  simp only [NamesUnknown, names, List.mem_append, or_and_right, exists_or]

/-- An expression has no type exactly where it names an unknown variable or negates a text. -/
theorem dataType_eq_undefined_iff (env : Environment) (e : Expr) :
    e.dataType env = .undefined ↔ NamesUnknown env e ∨ NegatesText env e := by
  induction e with
  | literal v =>
      refine iff_of_false v.dataType_ne_undefined ?_
      rintro (⟨name, hname, -⟩ | ⟨operand, hwithin, -⟩)
      · cases hname
      · cases hwithin
  | «variable» name =>
      have hnegates : ¬ NegatesText env (.variable name) := by
        rintro ⟨operand, hwithin, -⟩
        cases hwithin
      cases hname : env name with
      | none => simp [dataType, NamesUnknown, names, hname]
      | some v => simp [dataType, NamesUnknown, names, hname, hnegates, v.dataType_ne_undefined]
  | unary op inner ih =>
      have hnames : NamesUnknown env (.unary op inner) ↔ NamesUnknown env inner := Iff.rfl
      rw [dataType, UnaryOp.resultType_eq_undefined_iff, ih, hnames, negatesText_unary_iff]
      tauto
  | binary op lhs rhs ihl ihr =>
      have hresult := op.resultType_ne_undefined (lhs.dataType env) (rhs.dataType env)
      rw [namesUnknown_binary_iff, negatesText_binary_iff]
      simp only [dataType, ihl, ihr]
      split <;> tauto

end Expr

/-! ### Evaluating -/

/-- What may come of an expression of some type: a value of that type, or an operator that refuses
its operands. -/
inductive Agrees (type : DataType) : Except ExprError Value → Prop
  | value {v : Value} (h : v.dataType = type) : Agrees type (.ok v)
  | mismatch (op : String) (l r : DataType) : Agrees type (.error (.typeMismatch op l r))
  | divisionByZero : Agrees type (.error .divisionByZero)

namespace Agrees

variable {type : DataType}

/-- A refusal does not depend on the type. -/
theorem of_error {error : ExprError} (h : Agrees type (.error error)) (other : DataType) :
    Agrees other (.error error) := by
  cases h with
  | mismatch op l r => exact .mismatch op l r
  | divisionByZero => exact .divisionByZero

theorem bool (b : Bool) : Agrees .bool (.ok (.bool b)) := .value rfl

/-- Arithmetic comes to a number where it comes to anything. -/
theorem calculate (op : BinaryOp) (l r : Value) : Agrees .number (op.calculate l r) := by
  have hnumber : ∀ x y, Agrees .number ((op.arithmetic x y).map .number) := by
    intro x y
    cases harithmetic : op.arithmetic x y with
    | ok z => exact .value rfl
    | error error =>
        -- only division and remainder fail
        have hzero : error = .divisionByZero := by
          unfold BinaryOp.arithmetic at harithmetic
          grind
        rw [hzero]
        exact .divisionByZero
  unfold BinaryOp.calculate
  split
  · exact hnumber _ _
  · exact .mismatch _ _ _

/-- A comparison comes to a truth value where it comes to anything. -/
theorem compared (op : BinaryOp) (l r : Value) :
    Agrees .bool (match l.compare? r with
      | some order => .ok (.bool (op.holds order))
      | none => .error (op.mismatch l r)) := by
  cases l.compare? r with
  | some order => exact bool _
  | none => exact .mismatch _ _ _

theorem binary (op : BinaryOp) (l r : Value) :
    Agrees (op.resultType l.dataType r.dataType) (op.apply l r) := by
  cases op with
  | or | and | equal | notEqual => exact bool _
  | less | lessEqual | greater | greaterEqual => exact compared _ l r
  | sub | mul | div | rem => exact calculate _ l r
  | add =>
      have htext : ∀ v : Value, BinaryOp.isText v = true ↔ v.dataType = .string := by
        intro v
        cases v <;> simp [BinaryOp.isText, Value.dataType]
      unfold BinaryOp.resultType BinaryOp.apply
      simp only [Bool.or_eq_true, htext]
      split
      · exact .value rfl
      · exact calculate .add l r

theorem unary (op : UnaryOp) (v : Value) : Agrees (op.resultType v.dataType) (op.apply v) := by
  cases op with
  | not => cases v <;> exact bool _
  | neg =>
      cases v with
      | bool b | number x => exact .value rfl
      | string s => exact .mismatch _ _ _

end Agrees

namespace Expr

/-- What may come of two sides of an operator, evaluated left before right. -/
inductive Combines (op : BinaryOp) (left right result : Except ExprError Value) : Prop
  | left {error : ExprError} : left = .error error → result = .error error →
      Combines op left right result
  /-- The left side decides, and the right side is not looked at. -/
  | decided (b : Bool) : op = .and ∨ op = .or → result = .ok (.bool b) →
      Combines op left right result
  | right {error : ExprError} : right = .error error → result = .error error →
      Combines op left right result
  | applied {l r : Value} : left = .ok l → right = .ok r → result = op.apply l r →
      Combines op left right result

theorem combines_binary (env : Environment) (op : BinaryOp) (lhs rhs : Expr) :
    Combines op (lhs.evaluate env) (rhs.evaluate env) ((binary op lhs rhs).evaluate env) := by
  rw [evaluate]
  cases hl : lhs.evaluate env with
  | error error => exact .left rfl rfl
  | ok l =>
      dsimp only
      split
      · next hand => exact .decided false (.inl hand.1) rfl
      · split
        · next hor => exact .decided true (.inr hor.1) rfl
        · cases hr : rhs.evaluate env with
          | error error => exact .right rfl rfl
          | ok r => exact .applied rfl rfl rfl

/-- What comes of two sides that agree with their types agrees with the type of the operator. -/
theorem Combines.agrees {op : BinaryOp} {left right result : Except ExprError Value}
    {l r : DataType} (h : Combines op left right result) (hleft : Agrees l left)
    (hright : Agrees r right) : Agrees (op.resultType l r) result := by
  cases h with
  | left hl hresult =>
      subst hl hresult
      exact hleft.of_error _
  | decided b hop hresult =>
      subst hresult
      obtain rfl | rfl := hop <;> exact .bool b
  | right hr hresult =>
      subst hr hresult
      exact hright.of_error _
  | applied hl hr hresult =>
      subst hl hr hresult
      obtain ⟨rfl⟩ := hleft
      obtain ⟨rfl⟩ := hright
      exact .binary op _ _

/-- An expression that has a type evaluates to a value of it, or fails for another reason than an
unknown name. -/
theorem evaluate_agrees {env : Environment} {e : Expr} (h : e.dataType env ≠ .undefined) :
    Agrees (e.dataType env) (e.evaluate env) := by
  induction e with
  | literal v => exact .value rfl
  | «variable» name =>
      cases hname : env name with
      | none => simp [dataType, hname] at h
      | some v =>
          simp only [dataType, evaluate, hname]
          exact .value rfl
  | unary op inner ih =>
      have hinner : inner.dataType env ≠ .undefined := fun hundefined =>
        h ((op.resultType_eq_undefined_iff _).mpr (.inl hundefined))
      have hagrees := ih hinner
      rw [dataType, evaluate]
      generalize inner.dataType env = type at hagrees
      cases hvalue : inner.evaluate env with
      | error error =>
          rw [hvalue] at hagrees
          exact hagrees.of_error _
      | ok v =>
          rw [hvalue] at hagrees
          obtain ⟨rfl⟩ := hagrees
          exact .unary op v
  | binary op lhs rhs ihl ihr =>
      obtain ⟨hlhs, hrhs⟩ : lhs.dataType env ≠ .undefined ∧ rhs.dataType env ≠ .undefined := by
        simp only [dataType] at h
        split at h
        · exact absurd rfl h
        · next hknown => exact not_or.mp hknown
      rw [dataType, if_neg (not_or.mpr ⟨hlhs, hrhs⟩)]
      exact (combines_binary env op lhs rhs).agrees (ihl hlhs) (ihr hrhs)

/-- An expression has no type exactly where it names a variable that is not there, or negates an
expression that is a text. Where it has one, evaluating it gives a value of that type, or fails
for the types of two operands or for a division by zero. -/
theorem dataType_sound (env : Environment) (e : Expr) :
    (e.dataType env = .undefined ↔
      (∃ name ∈ e.names, env name = none) ∨
        ∃ inner, Within (.unary .neg inner) e ∧ inner.dataType env = .string) ∧
    (e.dataType env ≠ .undefined →
      ((∃ v, e.evaluate env = .ok v ∧ v.dataType = e.dataType env) ∨
        (∃ op l r, e.evaluate env = .error (.typeMismatch op l r)) ∨
        e.evaluate env = .error .divisionByZero) ∧
      ∀ name, e.evaluate env ≠ .error (.undefinedVariable name)) := by
  refine ⟨dataType_eq_undefined_iff env e, fun htype => ?_⟩
  have hagrees := evaluate_agrees htype
  generalize e.dataType env = type at hagrees
  generalize e.evaluate env = result at hagrees
  cases hagrees with
  | value h => exact ⟨.inl ⟨_, rfl, h⟩, fun name hname => by cases hname⟩
  | mismatch op l r => exact ⟨.inr (.inl ⟨op, l, r, rfl⟩), fun name hname => by cases hname⟩
  | divisionByZero => exact ⟨.inr (.inr rfl), fun name hname => by cases hname⟩

/-- A text compared with a truth value: the comparison has a type, the values are refused. -/
def askew : Expr :=
  .binary .less (.variable "name") (.unary .not (.variable "known"))

def askewNames : Environment
  | "name" => some (.string "Bob")
  | "known" => some (.bool true)
  | _ => none

theorem askew_dataType_sound :
    askew.dataType askewNames = .bool ∧
      (Expr.unary .neg askew).dataType askewNames = .number ∧
      askew.evaluate askewNames = .error (.typeMismatch "<" .string .bool) ∧
      (∀ name, askew.evaluate askewNames ≠ .error (.undefinedVariable name)) ∧
      ¬ (∃ name ∈ askew.names, askewNames name = none) :=
  have htype : askew.dataType askewNames = .bool := rfl
  have hknown : askew.dataType askewNames ≠ .undefined := by rw [htype]; decide
  have hsound := dataType_sound askewNames askew
  ⟨htype, rfl, rfl, (hsound.2 hknown).2, fun hnone => hknown (hsound.1.mpr (.inl hnone))⟩

end Expr

end Parley
