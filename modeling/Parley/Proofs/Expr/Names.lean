import Parley.Proofs.Expr.Tokens
import Parley.Proofs.Expr.Typing

/-!
# What an expression reads

The leaves of an expression are the values in its source, from left to right: however operators
group them, none is lost, repeated or moved. So its names are those of the source, and of the
variables around it these alone make a difference to its value and its type.
-/

namespace Parley

/-! ### Leaves -/

/-- A literal or a name. -/
def Token.isValue : Token → Bool
  | .bool _ | .number _ | .string _ | .name _ => true
  | _ => false

/-- The name a token carries, if it is one. -/
def Token.name? : Token → Option String
  | .name s => some s
  | _ => none

theorem Token.filterMap_name?_filter (ts : List Token) :
    (ts.filter isValue).filterMap name? = ts.filterMap name? := by
  rw [List.filterMap_filter]
  congr 1
  funext t
  cases t <;> rfl

/-- The token that is read as a literal. -/
def Value.token : Value → Token
  | .bool b => .bool b
  | .number x => .number x
  | .string s => .string s

theorem Value.name?_token (v : Value) : v.token.name? = none := by
  cases v <;> rfl

/-- The leaves of a tree from left to right, each as the token it is read from. -/
def Expr.leaves : Expr → List Token
  | .literal v => [v.token]
  | .variable name => [.name name]
  | .unary _ inner => inner.leaves
  | .binary _ lhs rhs => lhs.leaves ++ rhs.leaves

/-- The names of an expression are those among its leaves, in their order and with repeats. -/
theorem Expr.names_eq (e : Expr) : e.names = e.leaves.filterMap Token.name? := by
  induction e with
  | literal v => simp [names, leaves, v.name?_token]
  | «variable» name => rfl
  | unary op inner ih => exact ih
  | binary op lhs rhs ihl ihr => rw [names, leaves, List.filterMap_append, ihl, ihr]

/-- Parentheses and operators go, and all else stays where it was. -/
theorem Grammar.Derives.leaves_eq {s : Stratum} {ts : List Token} {e : Expr}
    (h : Derives s ts e) : e.leaves = ts.filter Token.isValue := by
  induction h with
  | number | string | bool | name => rfl
  | @parens ts e _ ih =>
      rw [List.filter_cons_of_neg (by simp [Token.isValue]), List.filter_append, ← ih]
      exact (List.append_nil _).symm
  | not _ ih | neg _ ih => exact ih
  | binary _ _ _ ihl ihr =>
      rw [Expr.leaves, List.filter_append, List.filter_cons_of_neg (by simp [Token.isValue]), ihl,
        ihr]
  | tighter _ ih => exact ih

/-- The names of an expression are those among the tokens it is derived from. -/
theorem Grammar.Derives.names_eq {s : Stratum} {ts : List Token} {e : Expr}
    (h : Derives s ts e) : e.names = ts.filterMap Token.name? := by
  rw [Expr.names_eq, h.leaves_eq, Token.filterMap_name?_filter]

/-! ### Reading variables -/

/-- An operator that refuses its operands does not blame a name. -/
theorem Agrees.ne_undefinedVariable {type : DataType} {result : Except ExprError Value}
    (h : Agrees type result) (name : String) : result ≠ .error (.undefinedVariable name) := by
  rintro rfl
  cases h

namespace Expr

variable {env other : Environment} {e : Expr} {name : String}

/-- The value depends on the environment through the names of the expression only. -/
theorem evaluate_congr (h : ∀ name ∈ e.names, env name = other name) :
    e.evaluate env = e.evaluate other := by
  induction e with
  | literal v => rfl
  | «variable» name => simp only [evaluate, h name (List.mem_singleton_self name)]
  | unary op inner ih => simp only [evaluate, ih h]
  | binary op lhs rhs ihl ihr =>
      rw [names, List.forall_mem_append] at h
      simp only [evaluate, ihl h.1, ihr h.2]

/-- The type depends on the environment through the names of the expression only. -/
theorem dataType_congr (h : ∀ name ∈ e.names, env name = other name) :
    e.dataType env = e.dataType other := by
  induction e with
  | literal v => rfl
  | «variable» name => simp only [dataType, h name (List.mem_singleton_self name)]
  | unary op inner ih => simp only [dataType, ih h]
  | binary op lhs rhs ihl ihr =>
      rw [names, List.forall_mem_append] at h
      simp only [dataType, ihl h.1, ihr h.2]

/-- A name that is blamed was read, and it is missing. -/
theorem unknown_of_evaluate (h : e.evaluate env = .error (.undefinedVariable name)) :
    name ∈ e.names ∧ env name = none := by
  induction e with
  | literal v => cases h
  | «variable» known =>
      cases hknown : env known with
      | some v => simp [evaluate, hknown] at h
      | none =>
          simp only [evaluate, hknown, Except.error.injEq, ExprError.undefinedVariable.injEq] at h
          subst h
          exact ⟨List.mem_singleton_self known, hknown⟩
  | unary op inner ih =>
      rw [evaluate] at h
      cases hvalue : inner.evaluate env with
      | error cause =>
          rw [hvalue] at h
          exact ih (hvalue.trans h)
      | ok v =>
          rw [hvalue] at h
          exact absurd h ((Agrees.unary op v).ne_undefinedVariable name)
  | binary op lhs rhs ihl ihr =>
      rw [names, List.mem_append]
      cases combines_binary env op lhs rhs with
      | left hl hresult =>
          obtain ⟨hmem, hnone⟩ := ihl (hl.trans (hresult.symm.trans h))
          exact ⟨.inl hmem, hnone⟩
      | decided b _ hresult => cases hresult.symm.trans h
      | right hr hresult =>
          obtain ⟨hmem, hnone⟩ := ihr (hr.trans (hresult.symm.trans h))
          exact ⟨.inr hmem, hnone⟩
      | @applied l r _ _ hresult =>
          exact absurd (hresult.symm.trans h) ((Agrees.binary op l r).ne_undefinedVariable name)

end Expr

namespace Expression

open Lexer (lexemes tokens strays)

/-- The tokens of a source, in order. -/
def tokensOf (source : String) : List Token :=
  (tokens (lexemes source)).map Text.Spanned.item

/-- An expression has for its leaves the value tokens of its source and for its names the name
tokens, in order and with repeats. Variables that go by other names change neither its value nor
its type, and a name that is said to be missing is one of its own and is missing. -/
theorem names_complete {source : String} {x : Expression} (h : parse source = .ok x) :
    (strays (lexemes source) = [] ∧ x.root.leaves = (tokensOf source).filter Token.isValue ∧
      x.root.names = (tokensOf source).filterMap Token.name?) ∧
    (∀ env other : Environment, (∀ name ∈ x.root.names, env name = other name) →
      x.root.evaluate env = x.root.evaluate other ∧
        x.root.dataType env = x.root.dataType other) ∧
    ∀ (env : Environment) (name : String),
      x.root.evaluate env = .error (.undefinedVariable name) →
        name ∈ x.root.names ∧ env name = none := by
  obtain ⟨hroot, -⟩ := parse_eq_ok_iff.mp h
  obtain ⟨hstrays, hderives⟩ := Grammar.parse_eq_ok_iff_derives.mp hroot
  refine ⟨⟨hstrays, hderives.leaves_eq, hderives.names_eq⟩, fun env other hagree => ?_,
    fun env name hmissing => ?_⟩
  · exact ⟨Expr.evaluate_congr hagree, Expr.dataType_congr hagree⟩
  · exact Expr.unknown_of_evaluate hmissing

/-! A debt that is looked up only where nobody is rich. -/

def loanLine : String :=
  "not rich or (lender == 'Ann' and 2 - gold < debt)"

def loan : Expr :=
  .binary .or (.unary .not (.variable "rich"))
    (.binary .and (.binary .equal (.variable "lender") (.literal (.string "Ann")))
      (.binary .less (.binary .sub (.literal (.number 2.0)) (.variable "gold"))
        (.variable "debt")))

/-- The variables, with one more that the line does not name. -/
def loanNames (weather : Option Value) : Environment
  | "rich" => some (.bool true)
  | "lender" => some (.string "Ann")
  | "gold" => some (.bool false)
  | "weather" => weather
  | _ => none

/-- A name behind a short-circuiting operator is listed, although it is not always looked up. -/
theorem loan_names_complete :
    ∃ x, parse loanLine = .ok x ∧
      (tokensOf loanLine).filterMap Token.name? = ["rich", "lender", "gold", "debt"] ∧
      x.root.evaluate (loanNames none) = x.root.evaluate (loanNames (some (.string "rain"))) ∧
      x.root.evaluate (loanNames none) = .error (.undefinedVariable "debt") ∧
      "debt" ∈ x.root.names ∧ loanNames none "debt" = none := by
  have hroot : Expr.parse loanLine = .ok loan :=
    Expr.parse_of_toOption (by decide +kernel)
  have hparse : parse loanLine = .ok ⟨String.ofList (Text.trim loanLine.toList), loan⟩ :=
    parse_eq_ok_iff.mpr ⟨hroot, rfl⟩
  obtain ⟨⟨-, -, hnames⟩, hagree, hunknown⟩ := names_complete hparse
  have hmissing : loan.evaluate (loanNames none) = .error (.undefinedVariable "debt") := rfl
  refine ⟨_, hparse, hnames.symm, (hagree _ _ ?_).1, hmissing, hunknown _ _ hmissing⟩
  intro name hname
  have hmem : name ∈ ["rich", "lender", "gold", "debt"] := hname
  simp only [List.mem_cons, List.not_mem_nil, or_false] at hmem
  rcases hmem with rfl | rfl | rfl | rfl <;> rfl

end Expression

end Parley
