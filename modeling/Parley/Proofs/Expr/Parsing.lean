import Parley.Expr.Parser
import Parley.Proofs.Expr.Grammar
import Parley.Proofs.Expr.Lexing

/-!
# The parser and the grammar

The parser reads a list of tokens to an expression exactly where the grammar derives that
expression from it, and the grammar never derives two.

## Implementation notes

What the stack of the parser stands for is said twice. Going from a derivation to a run, `Fits`
says which stacks leave the operators of a stratum alone. Going back, `Opened` derives what each
open construct holds already.
-/

namespace Parley

namespace Parser

open Grammar

/-! ### What the stack stands for -/

/-- The innermost open operator binds more loosely than the operators of a level. Unary operators
have level 7, above all binary ones. -/
def Fits (level : Nat) : List Frame → Prop
  | .binary _ op :: _ => op.level < level
  | .unary _ :: _ => 7 < level
  | _ => True

/-- The open constructs hold some tokens that were read: each operator is derived by its stratum
as far as it goes, and closes no construct around it. -/
inductive Opened : List Frame → List Token → Prop
  | nil : Opened [] []
  | group {frames ts} : Opened frames ts → Opened (.group :: frames) (ts ++ [.openParen])
  | not {frames ts} : Opened frames ts → Opened (.unary .not :: frames) (ts ++ [.not])
  | neg {frames ts} : Opened frames ts → Opened (.unary .neg :: frames) (ts ++ [.operator .sub])
  | binary {frames ts s op left lhs} : Opened frames ts → op ∈ s.operators →
      Derives s left lhs → Fits op.level frames →
      Opened (.binary lhs op :: frames) (ts ++ (left ++ [.operator op]))

/-- A state of the parser holds the tokens that were read. -/
inductive Holds : State → List Token → Prop
  | due {frames ts} : Opened frames ts → Holds ⟨frames, none⟩ ts
  | done {frames outer inner e} : Opened frames outer → Fits 7 frames →
      Derives .unary inner e → Holds ⟨frames, some e⟩ (outer ++ inner)

variable {frames : List Frame} {ts : List Token} {e : Expr}

/-! ### Steps of the parser -/

/-- What is left open, and the operand, when the open binary operators of a level or tighter are
closed. -/
def State.settled (level : Nat) (s : State) : Option (List Frame × Expr) :=
  s.operand.map (settle level s.frames)

/-- An operator takes what the tighter ones in front of it came to as its left operand. -/
theorem State.step?_operator {s : State} {op : BinaryOp} {lhs : Expr}
    (h : s.settled op.level = some (frames, lhs)) :
    s.step? (.operator op) = some ⟨.binary lhs op :: frames, none⟩ := by
  obtain ⟨open', operand⟩ := s
  cases operand with
  | none => cases h
  | some e =>
      have hsettle : settle op.level open' e = (frames, lhs) := Option.some.inj h
      simp only [step?, readOperator?, hsettle]

/-- A closing parenthesis gives the group it closes back as an operand. -/
theorem State.step?_closeParen {s : State} (h : s.settled 0 = some (.group :: frames, e)) :
    s.step? .closeParen = some (complete frames e) := by
  obtain ⟨open', operand⟩ := s
  cases operand with
  | none => cases h
  | some inner =>
      have hsettle : settle 0 open' inner = (.group :: frames, e) := Option.some.inj h
      simp only [step?, readOperator?, hsettle]

theorem State.finish?_eq_some {s : State} (h : s.settled 0 = some ([], e)) :
    s.finish? = some e := by
  obtain ⟨open', operand⟩ := s
  cases operand with
  | none => cases h
  | some inner =>
      have hsettle : settle 0 open' inner = ([], e) := Option.some.inj h
      simp only [finish?, hsettle]

/-- A run that succeeds takes one step for each token and leaves nothing open. -/
theorem run_eq_ok_iff {eoi : Text.Span} {s : State} {ts : List (Text.Spanned Token)} :
    run eoi s ts = .ok e ↔
      ∃ t, (ts.map Text.Spanned.item).foldlM State.step? s = some t ∧ t.finish? = some e := by
  induction ts generalizing s with
  | nil => cases h : s.finish? <;> simp [run, h]
  | cons t ts ih => cases h : s.step? t.item <;> simp [run, h, ih]

/-! ### From derivations to runs -/

theorem Fits.mono {k m : Nat} (h : Fits k frames) (hle : k ≤ m) : Fits m frames := by
  match frames with
  | .binary _ _ :: _ | .unary _ :: _ => exact Nat.lt_of_lt_of_le h hle
  | .group :: _ | [] => trivial

/-- Below the unary operators, an operand is kept as it is until an operator closes it. -/
theorem complete_of_fits (h : Fits 7 frames) (e : Expr) :
    State.complete frames e = ⟨frames, some e⟩ := by
  match frames with
  | .unary _ :: _ => exact absurd h (Nat.lt_irrefl 7)
  | .binary _ _ :: _ | .group :: _ | [] => rfl

/-- Nothing is applied before its time: frames that fit are left as they stand. -/
theorem settle_of_fits {level : Nat} (h : Fits level frames) (e : Expr) :
    settle level frames e = (frames, e) := by
  match frames with
  | .binary _ _ :: _ => exact if_neg (Nat.not_le_of_lt h)
  | .unary _ :: _ | .group :: _ | [] => rfl

theorem level_lt (op : BinaryOp) : op.level < 7 := by
  cases op <;> decide

theorem settled_complete {op : BinaryOp} (h : Fits op.level frames) (e : Expr) :
    (State.complete frames e).settled op.level = some (frames, e) := by
  rw [complete_of_fits (h.mono (Nat.le_of_lt (level_lt op)))]
  exact congrArg some (settle_of_fits h e)

/-- Reading what a stratum derives comes to the same as reading its expression as one operand,
once the operators of the stratum are closed. -/
theorem exists_of_derives {s : Stratum} (h : Derives s ts e) (frames : List Frame)
    (hfits : Fits s.rank frames) :
    ∃ t, ts.foldlM State.step? ⟨frames, none⟩ = some t ∧
      ∀ level ≤ s.rank, t.settled level = (State.complete frames e).settled level := by
  induction h generalizing frames with
  | number | string | bool | name => exact ⟨_, rfl, fun _ _ => rfl⟩
  | @parens ts e h ih =>
      obtain ⟨t, hread, hsettled⟩ := ih (.group :: frames) trivial
      have hclose : t.step? .closeParen = some (State.complete frames e) :=
        State.step?_closeParen (hsettled 0 (Nat.zero_le _))
      refine ⟨State.complete frames e, ?_, fun _ _ => rfl⟩
      change (ts ++ [Token.closeParen]).foldlM State.step? ⟨.group :: frames, none⟩ = _
      rw [List.foldlM_append, hread]
      change [Token.closeParen].foldlM State.step? t = _
      rw [List.foldlM_cons, hclose]
      rfl
  | not h ih => exact ih (.unary .not :: frames) (Nat.lt_succ_self 7)
  | neg h ih => exact ih (.unary .neg :: frames) (Nat.lt_succ_self 7)
  | @binary s op left lhs right rhs hop hleft hright ihleft ihright =>
      -- `op` closes what the left side leaves open, so that behind it the stack is known, and what
      -- the right side leaves open binds tighter than `op`.
      have hlevel := Stratum.level_of_mem hop
      rw [← hlevel] at hfits ihleft ⊢
      obtain ⟨t, hreadl, hsettledl⟩ := ihleft frames hfits
      have hstep : t.step? (.operator op) = some ⟨.binary lhs op :: frames, none⟩ := by
        apply State.step?_operator
        rw [hsettledl _ (Nat.le_refl _), settled_complete hfits]
      have hinner : Fits s.tighter.rank (.binary lhs op :: frames) := Stratum.level_lt_tighter hop
      obtain ⟨u, hreadr, hsettledr⟩ := ihright _ hinner
      refine ⟨u, ?_, fun level hle => ?_⟩
      · rw [List.foldlM_append, hreadl]
        change (Token.operator op :: right).foldlM State.step? t = _
        rw [List.foldlM_cons, hstep]
        exact hreadr
      · have hle' : level ≤ s.tighter.rank :=
          Nat.le_trans (hlevel ▸ hle) (Stratum.rank_le_tighter s)
        rw [hsettledr level hle', complete_of_fits (hfits.mono (Nat.le_of_lt (level_lt op)))]
        exact congrArg some (if_pos hle)
  | @tighter s ts e h ih =>
      have hrank := Stratum.rank_le_tighter s
      obtain ⟨t, hread, hsettled⟩ := ih frames (hfits.mono hrank)
      exact ⟨t, hread, fun level hle => hsettled level (Nat.le_trans hle hrank)⟩

/-! ### From runs to derivations -/

/-- An operand that is read is also the operand of the unary operators in front of it. -/
theorem holds_complete {outer inner : List Token} (hopened : Opened frames outer)
    (he : Derives .unary inner e) : Holds (State.complete frames e) (outer ++ inner) := by
  induction hopened generalizing inner e with
  | nil => exact .done .nil trivial he
  | group hopened ih => exact .done (.group hopened) trivial he
  | not hopened ih =>
      rw [List.append_assoc]
      exact ih he.not
  | neg hopened ih =>
      rw [List.append_assoc]
      exact ih he.neg
  | binary hopened hop hlhs hfits ih =>
      exact .done (.binary hopened hop hlhs hfits) (level_lt _) he

/-- Closing operators moves their tokens from the open constructs to the operand. -/
theorem opened_settle {level : Nat} {s : Stratum} {outer inner : List Token}
    (hopened : Opened frames outer) (he : Derives s inner e) (hlevel : level ≤ s.rank)
    (hfits : Fits s.rank frames) (hfits' : Fits 7 frames) :
    ∃ outer' inner' t, outer' ++ inner' = outer ++ inner ∧
      Opened (settle level frames e).1 outer' ∧ Derives t inner' (settle level frames e).2 ∧
      level ≤ t.rank ∧ Fits level (settle level frames e).1 := by
  induction hopened generalizing inner e s with
  | nil => exact ⟨_, _, s, rfl, .nil, he, hlevel, trivial⟩
  | group hopened ih => exact ⟨_, _, s, rfl, .group hopened, he, hlevel, trivial⟩
  | not | neg => exact absurd hfits' (Nat.lt_irrefl 7)
  | @binary frames ts t op left lhs hopened hop hlhs hfitsop ih =>
      -- What is open around a closed operator binds more loosely, so the induction goes on with
      -- the stratum of that operator.
      have hrank := Stratum.level_of_mem hop
      by_cases hle : level ≤ op.level
      · have hrhs : Derives t.tighter inner e :=
          he.loosen (Stratum.tighter_le_of_lt (hrank ▸ hfits))
        obtain ⟨outer', inner', u, hread, hsettled⟩ := ih (.binary hop hlhs hrhs) (hrank ▸ hle)
          (hrank ▸ hfitsop) (hfitsop.mono (Nat.le_of_lt (level_lt op)))
        rw [settle, if_pos hle]
        exact ⟨outer', inner', u, by simp [hread], hsettled⟩
      · rw [settle, if_neg hle]
        exact ⟨_, _, s, rfl, .binary hopened hop hlhs hfitsop, he, hlevel, Nat.lt_of_not_le hle⟩

/-- The operand of a state is tighter than all binary operators. -/
theorem opened_settle_operand {level : Nat} {outer inner : List Token}
    (hopened : Opened frames outer) (hfits : Fits 7 frames) (he : Derives .unary inner e)
    (hlevel : level < 7) :
    ∃ outer' inner' t, outer' ++ inner' = outer ++ inner ∧
      Opened (settle level frames e).1 outer' ∧ Derives t inner' (settle level frames e).2 ∧
      level ≤ t.rank ∧ Fits level (settle level frames e).1 :=
  opened_settle hopened he (Nat.le_of_lt (Nat.lt_succ_of_lt hlevel)) (hfits.mono (Nat.le_succ 7))
    hfits

/-- The invariant of the parser is kept where an operand is due. -/
theorem holds_readOperand? {t : Token} {s : State} (hopened : Opened frames ts)
    (hread : State.readOperand? frames t = some s) : Holds s (ts ++ [t]) := by
  have hvalue : ∀ {e}, Derives .atom [t] e → some (State.complete frames e) = some s →
      Holds s (ts ++ [t]) := by
    rintro e he ⟨⟩
    exact holds_complete hopened (.tighter he)
  cases t with
  | openParen =>
      cases hread
      exact .due (.group hopened)
  | not =>
      cases hread
      exact .due (.not hopened)
  | operator op =>
      cases op with
      | sub =>
          cases hread
          exact .due (.neg hopened)
      | _ => cases hread
  | bool b => exact hvalue (.bool b) hread
  | number x => exact hvalue (.number x) hread
  | string text => exact hvalue (.string text) hread
  | name text => exact hvalue (.name text) hread
  | closeParen => cases hread

/-- The invariant of the parser is kept where an operator or a parenthesis is due. -/
theorem holds_readOperator? {outer inner : List Token} {t : Token} {s : State}
    (hopened : Opened frames outer) (hfits : Fits 7 frames) (he : Derives .unary inner e)
    (hread : State.readOperator? frames e t = some s) : Holds s (outer ++ inner ++ [t]) := by
  cases t with
  | operator op =>
      obtain ⟨outer', inner', t, hmoved, hopened', hlhs, hlevel, hloose⟩ :=
        opened_settle_operand hopened hfits he (level_lt op)
      obtain ⟨u, hop⟩ := Stratum.exists_mem op
      have hbinary := Opened.binary hopened' hop
        (hlhs.loosen (Stratum.level_of_mem hop ▸ hlevel)) hloose
      rw [← hmoved, List.append_assoc]
      cases hread
      exact .due hbinary
  | closeParen =>
      obtain ⟨outer', inner', t, hmoved, hopened', hinner, -, -⟩ :=
        opened_settle_operand hopened hfits he (Nat.zero_lt_succ 6)
      simp only [State.readOperator?] at hread
      split at hread
      · next frames' inner hgroup =>
          rw [hgroup] at hopened' hinner
          cases hread
          rw [← hmoved]
          cases hopened' with
          | @group _ ts hrest =>
              simpa using holds_complete hrest (.tighter (.parens hinner.whole))
      · cases hread
  | _ => cases hread

/-- What is read is derivable so far, and one more token keeps that. -/
theorem Holds.step {s t : State} {read : List Token} {tok : Token} (h : Holds s read)
    (hstep : s.step? tok = some t) : Holds t (read ++ [tok]) := by
  cases h with
  | due hopened => exact holds_readOperand? hopened hstep
  | done hopened hfits he => exact holds_readOperator? hopened hfits he hstep

/-- What is read is derivable so far, however many tokens are read. -/
theorem Holds.steps {s t : State} {read ts : List Token} (h : Holds s read)
    (hsteps : ts.foldlM State.step? s = some t) : Holds t (read ++ ts) := by
  induction ts generalizing s read with
  | nil =>
      cases hsteps
      rwa [List.append_nil]
  | cons tok ts ih =>
      rw [List.foldlM_cons] at hsteps
      obtain ⟨u, hstep, hrest⟩ := Option.bind_eq_some_iff.mp hsteps
      simpa using ih (h.step hstep) hrest

/-- A run that comes to an expression has derived it from all the tokens. -/
theorem Holds.finish {s : State} {read : List Token} (h : Holds s read)
    (hfinish : s.finish? = some e) : Derives .disjunction read e := by
  cases h with
  | due hopened => cases hfinish
  | @done _ outer inner _ hopened hfits he =>
      obtain ⟨outer', inner', t, hmoved, hopened', hinner, -, -⟩ :=
        opened_settle_operand hopened hfits he (Nat.zero_lt_succ 6)
      simp only [State.finish?] at hfinish
      split at hfinish
      · next e hsettled =>
          rw [hsettled] at hopened' hinner
          cases hfinish
          cases hopened'
          rw [← hmoved]
          exact hinner.whole
      · cases hfinish

/-! ### Whole runs -/

/-- The tokens that some stratum derives an expression from are read to it. -/
theorem finish_of_derives {s : Stratum} (h : Derives s ts e) :
    ∃ t, ts.foldlM State.step? {} = some t ∧ t.finish? = some e := by
  obtain ⟨t, hread, hsettled⟩ := exists_of_derives h [] trivial
  exact ⟨t, hread, State.finish?_eq_some (hsettled 0 (Nat.zero_le _))⟩

/-- The parser finds an expression exactly where the grammar derives it from the tokens. -/
theorem run_eq_ok_iff_derives {eoi : Text.Span} {ts : List (Text.Spanned Token)} :
    run eoi {} ts = .ok e ↔ Derives .disjunction (ts.map Text.Spanned.item) e := by
  rw [run_eq_ok_iff]
  constructor
  · rintro ⟨t, hread, hfinish⟩
    exact ((Holds.due .nil).steps hread).finish hfinish
  · exact finish_of_derives

end Parser

namespace Grammar

/-- No two strata derive two expressions from the same tokens. -/
theorem Derives.unique {s t : Stratum} {ts : List Token} {e f : Expr} (he : Derives s ts e)
    (hf : Derives t ts f) : e = f := by
  obtain ⟨u, hread, hfinish⟩ := Parser.finish_of_derives he
  obtain ⟨v, hread', hfinish'⟩ := Parser.finish_of_derives hf
  cases hread.symm.trans hread'
  exact Option.some.inj (hfinish.symm.trans hfinish')

/-! ### Sources -/

open Lexer (lexemes tokens strays)

/-- A source is read as an expression exactly where nothing in it is stray and the grammar derives
the expression from its tokens. -/
theorem parse_eq_ok_iff_derives {source : String} {e : Expr} :
    Expr.parse source = .ok e ↔
      strays (lexemes source) = [] ∧
        Derives .disjunction ((tokens (lexemes source)).map Text.Spanned.item) e := by
  rw [Expr.parse]
  by_cases hblank : Text.allBlank source.toList = true
  · have htokens : tokens (lexemes source) = [] := Lexer.tokens_of_allBlank hblank 0
    rw [if_pos hblank, htokens]
    constructor
    · exact nofun
    · exact fun h => absurd rfl h.2.ne_nil
  · rw [if_neg hblank]
    cases hstrays : strays (lexemes source) with
    | nil => simpa [hstrays] using Parser.run_eq_ok_iff_derives
    | cons stray rest => simp [hstrays]

/-- A source is parsed to an expression exactly where nothing in it is stray and the grammar
derives that expression from its tokens; and the grammar derives at most one from any tokens. -/
theorem parses_grammar :
    (∀ (source : String) (e : Expr), Expr.parse source = .ok e ↔
      strays (lexemes source) = [] ∧
        Derives .disjunction ((tokens (lexemes source)).map Text.Spanned.item) e) ∧
    ∀ (ts : List Token) (e f : Expr),
      Derives .disjunction ts e → Derives .disjunction ts f → e = f :=
  ⟨fun _ _ => parse_eq_ok_iff_derives, fun _ _ _ => Derives.unique⟩

/-- Subtraction groups to the left, and a minus may also stand in front of an operand. -/
def mixed : String := "!a or (b - -c - d)"

def mixedTokens : List Token :=
  [.not, .name "a", .operator .or, .openParen, .name "b", .operator .sub, .operator .sub, .name "c",
    .operator .sub, .name "d", .closeParen]

def mixedTree : Expr :=
  .binary .or (.unary .not (.variable "a"))
    (.binary .sub (.binary .sub (.variable "b") (.unary .neg (.variable "c"))) (.variable "d"))

theorem mixed_derived : Derives .disjunction mixedTokens mixedTree := by
  have hname : ∀ (s : Stratum) (n : String), Derives s [.name n] (.variable n) := fun s n =>
    (Derives.name n).loosen s.rank_le_atom
  have hminus : Derives .product [.operator .sub, .name "c"] (.unary .neg (.variable "c")) :=
    .tighter (.neg (hname .unary "c"))
  have hfirst := Derives.binary (by decide : .sub ∈ Stratum.sum.operators) (hname .sum "b") hminus
  have hsum := Derives.binary (by decide : .sub ∈ Stratum.sum.operators) hfirst
    (hname .product "d")
  have hparens := (Derives.parens hsum.whole).loosen (Stratum.rank_le_atom .conjunction)
  have hnot := (Derives.not (hname .unary "a")).whole
  exact .binary (by decide : .or ∈ Stratum.disjunction.operators) hnot hparens

theorem mixed_parses :
    strays (lexemes mixed) = [] ∧ Expr.parse mixed = .ok mixedTree ∧
      ∀ f, Derives .disjunction mixedTokens f → mixedTree = f := by
  have hstrays : strays (lexemes mixed) = [] := List.isEmpty_iff.mp (by decide +kernel)
  have htokens : (tokens (lexemes mixed)).map Text.Spanned.item = mixedTokens := by
    decide +kernel
  have hparse : Expr.parse mixed = .ok mixedTree :=
    (parses_grammar.1 mixed mixedTree).mpr ⟨hstrays, htokens ▸ mixed_derived⟩
  exact ⟨hstrays, hparse, fun f => parses_grammar.2 mixedTokens mixedTree f mixed_derived⟩

end Grammar

end Parley
