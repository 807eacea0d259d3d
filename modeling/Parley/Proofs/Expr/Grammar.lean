import Parley.Expr.Token

/-!
# The grammar of expressions

The grammar is stratified: each stratum has binary operators of its own, and their operands on the
right come from the next tighter stratum. On the left an operand may come from the same stratum, so
that equal levels group to the left. Unary operators nest to the right.
-/

namespace Parley

namespace Grammar

/-! ### Strata -/

/-- From the loosest to the tightest. -/
inductive Stratum where
  | disjunction
  | conjunction
  | equality
  | comparison
  | sum
  | product
  | unary
  | atom
deriving DecidableEq, Repr

namespace Stratum

/-- The binary operators of a stratum. -/
def operators : Stratum → List BinaryOp
  | .disjunction => [.or]
  | .conjunction => [.and]
  | .equality => [.equal, .notEqual]
  | .comparison => [.less, .lessEqual, .greater, .greaterEqual]
  | .sum => [.add, .sub]
  | .product => [.mul, .div, .rem]
  | .unary | .atom => []

/-- The next tighter stratum; there is none behind the last. -/
def tighter : Stratum → Stratum
  | .disjunction => .conjunction
  | .conjunction => .equality
  | .equality => .comparison
  | .comparison => .sum
  | .sum => .product
  | .product => .unary
  | .unary | .atom => .atom

/-- The level of the operators of a stratum. Unary operators have level 7; an operand of theirs may
begin with another one, and ranks above. -/
def rank : Stratum → Nat
  | .disjunction => 1
  | .conjunction => 2
  | .equality => 3
  | .comparison => 4
  | .sum => 5
  | .product => 6
  | .unary => 8
  | .atom => 9

theorem rank_le_tighter (s : Stratum) : s.rank ≤ s.tighter.rank := by
  cases s <;> decide

theorem tighter_le_of_lt {s t : Stratum} (h : s.rank < t.rank) : s.tighter.rank ≤ t.rank := by
  cases s <;> cases t <;> revert h <;> decide

theorem rank_lt_tighter {s t : Stratum} (h : s.rank < t.rank) : s.rank < s.tighter.rank := by
  cases s <;> cases t <;> revert h <;> decide

/-- Strata are told apart by their rank alone. -/
theorem rank_inj {s t : Stratum} (h : s.rank = t.rank) : s = t := by
  cases s <;> cases t <;> revert h <;> decide

theorem disjunction_le_rank (s : Stratum) : Stratum.disjunction.rank ≤ s.rank := by
  cases s <;> decide

theorem rank_le_atom (s : Stratum) : s.rank ≤ Stratum.atom.rank := by
  cases s <;> decide

/-- The rank of a stratum is the level its operators have in the parser. -/
theorem level_of_mem {s : Stratum} {op : BinaryOp} (h : op ∈ s.operators) : op.level = s.rank := by
  cases s <;> cases op <;> revert h <;> decide

/-- An operand on the right stands above the level of the operator in front of it. -/
theorem level_lt_tighter {s : Stratum} {op : BinaryOp} (h : op ∈ s.operators) :
    op.level < s.tighter.rank := by
  cases s <;> cases op <;> revert h <;> decide

/-- No operator is without a stratum. -/
theorem exists_mem (op : BinaryOp) : ∃ s : Stratum, op ∈ s.operators := by
  cases op
  case or => exact ⟨.disjunction, by decide⟩
  case and => exact ⟨.conjunction, by decide⟩
  case equal | notEqual => exact ⟨.equality, by decide⟩
  case less | lessEqual | greater | greaterEqual => exact ⟨.comparison, by decide⟩
  case add | sub => exact ⟨.sum, by decide⟩
  case mul | div | rem => exact ⟨.product, by decide⟩

end Stratum

/-! ### Derivations -/

/-- A stratum derives an expression from a list of tokens. -/
inductive Derives : Stratum → List Token → Expr → Prop
  | number (x : Float) : Derives .atom [.number x] (.literal (.number x))
  | string (s : String) : Derives .atom [.string s] (.literal (.string s))
  | bool (b : Bool) : Derives .atom [.bool b] (.literal (.bool b))
  | name (s : String) : Derives .atom [.name s] (.variable s)
  | parens {ts e} : Derives .disjunction ts e →
      Derives .atom (.openParen :: (ts ++ [.closeParen])) e
  | not {ts e} : Derives .unary ts e → Derives .unary (.not :: ts) (.unary .not e)
  | neg {ts e} : Derives .unary ts e → Derives .unary (.operator .sub :: ts) (.unary .neg e)
  | binary {s op left lhs right rhs} : op ∈ s.operators → Derives s left lhs →
      Derives s.tighter right rhs →
      Derives s (left ++ .operator op :: right) (.binary op lhs rhs)
  | tighter {s ts e} : Derives s.tighter ts e → Derives s ts e

theorem Derives.loosen {s t : Stratum} {ts : List Token} {e : Expr} (h : Derives t ts e)
    (hrank : s.rank ≤ t.rank) : Derives s ts e := by
  obtain heq | hlt := Nat.eq_or_lt_of_le hrank
  · rwa [Stratum.rank_inj heq]
  · exact .tighter (h.loosen (Stratum.tighter_le_of_lt hlt))
termination_by 9 - s.rank
decreasing_by
  have hstep := Stratum.rank_lt_tighter hlt
  have hbound : s.tighter.rank ≤ 9 := Stratum.rank_le_atom _
  omega

/-- What any stratum derives is an expression. -/
theorem Derives.whole {s : Stratum} {ts : List Token} {e : Expr} (h : Derives s ts e) :
    Derives .disjunction ts e :=
  h.loosen s.disjunction_le_rank

theorem Derives.ne_nil {s : Stratum} {ts : List Token} {e : Expr} (h : Derives s ts e) :
    ts ≠ [] := by
  induction h with
  | tighter h ih => exact ih
  | binary => simp
  | _ => exact List.cons_ne_nil _ _

end Grammar

end Parley
