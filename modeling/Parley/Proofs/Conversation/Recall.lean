import Parley.Proofs.Conversation.Arguments
import Parley.Proofs.Expr.Keywords
import Parley.Proofs.Script.Accepted

/-!
# What was assigned, read back

The target of an assignment is spelled like a name of the expression language, and nothing more is
asked of it. So it may be a keyword there: then the variable is set, and no expression has it for
one of its names. Any other target is read back by its name alone, as it was assigned.
-/

namespace Parley

open Lexer (isName keywords Alone)

variable {name source : String}

/-! ### Conditions and arguments -/

section Value

variable {env : Environment} {v : Value}

/-- The value of a source wherever a source is read: in a condition, and in an argument of any
command at any place. -/
structure ReadsAs (env : Environment) (source : String) (v : Value) : Prop where
  value : Command.ComesTo env source v
  condition : Conversation.holds env source = (v.toBool, [])
  argument : ∀ (command : String) (index : Nat) (kind : ParamKind),
    Command.argument command index kind env source =
      match kind.coerce? v with
      | some arg => .ok arg
      | none => .error (.argumentType command index kind v.dataType)

/-- An expression is read in the same way in a condition, in an argument and in an assignment. -/
theorem readsAs_of_comesTo (h : Command.ComesTo env source v)
    (hblank : Text.allBlank source.toList = false) : ReadsAs env source v := by
  obtain ⟨e, hparse, hvalue⟩ := h
  have hbind : (Expr.parse source).bind (Expr.evaluate env) = .ok v := by
    rw [hparse]
    exact hvalue
  have hbool : (Expr.parse source).bind (Expr.evaluateBool env) = .ok v.toBool := by
    rw [hparse]
    exact congrArg (Except.map Value.toBool) hvalue
  refine ⟨⟨e, hparse, hvalue⟩, ?_, fun command index kind => ?_⟩
  · simp only [Conversation.holds, hblank, Bool.false_eq_true, if_false, hbool]
  · cases hcoerce : kind.coerce? v <;> simp only [Command.argument, hbind, hcoerce]

theorem Lexer.Alone.allBlank (hname : isName name.toList = true) (h : Alone name source) :
    Text.allBlank source.toList = false := by
  obtain ⟨before, after, hsource, -, -⟩ := h
  obtain ⟨c, cs, hchars, hc⟩ := Lexer.exists_cons_of_isName hname
  rw [← Bool.not_eq_true, Text.allBlank, List.all_eq_true]
  intro hblank
  have hmem : c ∈ source.toList := by simp [hsource, hchars]
  have hplain := Lexer.isBlank_of_isNameChar hc
  rw [hblank c hmem] at hplain
  cases hplain

/-- A name that is no keyword is read as its variable. -/
theorem readsAs_of_alone (hname : isName name.toList = true) (hkeyword : name ∉ keywords)
    (h : Alone name source) (hvalue : env name = some v) : ReadsAs env source v := by
  have hvariable : (Expr.variable name).evaluate env = .ok v := by
    simp only [Expr.evaluate, hvalue]
  exact readsAs_of_comesTo ⟨_, Expr.parse_of_alone hname hkeyword h, hvariable⟩
    (h.allBlank hname)

end Value

namespace Statement

/-- A statement that is read has a name of the expression language. -/
theorem isName_of_read {text : List Char} {s : Statement} (h : read text = .ok s) :
    isName s.name.toList = true := by
  cases wellFormed_of_read h with
  | empty hname | assign hname _ | call hname _ => exact hname

end Statement

namespace Turn

/-- The name of an assignment that is accepted. If it is a keyword, no expression has it for a name,
whatever it was set to. Otherwise it is an expression by itself, the variable; and as long as the
variable keeps the value that the assignment gave it, a condition or an argument that consists of
the name comes to that value. -/
theorem assigned_read_back {text : List Char} {args : List String}
    (hread : Statement.read text = .ok ⟨.assignment, name, args⟩) :
    (name ∈ keywords → ∀ source e, Expr.parse source = .ok e → name ∉ e.names) ∧
    (name ∉ keywords →
      Expression.parse name = .ok ⟨name, .variable name⟩ ∧
      ∀ (hop : Hop) (dialogue : String) (t : Turn) (v : Value),
        t.Assigns (execute hop dialogue ⟨.assignment, name, args⟩ t).turn name v →
        ∀ env : Environment,
          env name =
            (execute hop dialogue ⟨.assignment, name, args⟩ t).turn.talk.vars.lookup name →
          ∀ source, Alone name source → ReadsAs env source v) := by
  have hname : isName name.toList = true := Statement.isName_of_read hread
  refine ⟨fun hkeyword source e hparse => Expr.notMem_names_of_keyword hkeyword hparse,
    fun hkeyword => ⟨?_, fun hop dialogue t v hassigns env hsame source halone => ?_⟩⟩
  · refine Expression.parse_eq_ok_iff.mpr ⟨?_, ?_⟩
    · exact Expr.parse_of_alone hname hkeyword (Lexer.alone_self _)
    · rw [Text.trim_eq_self (Lexer.trimmed_of_isName hname), String.ofList_toList]
  · rw [hassigns, Function.update_self] at hsame
    exact readsAs_of_alone hname hkeyword halone hsame

end Turn

namespace Conversation

/-! The coins of the chest, counted in a name that begins like a keyword and in a keyword. -/

/-- The turn behind the statement that sets a name to the coins. -/
def chestCounted (name : String) : Turn :=
  (Turn.execute (Turn.follow 8) "chest" ⟨.assignment, name, ["coins"]⟩
    (Turn.fresh chestTalk)).turn

theorem chest_counted (name : String) :
    (Turn.fresh chestTalk).Assigns (chestCounted name) name (.number 2.0) := by
  have hparse : Expr.parse "coins" = .ok (.variable "coins") :=
    Expr.parse_of_toOption (by decide +kernel)
  exact Turn.assigns_of_ok hparse (Turn.assignedValue_number (v := .number 2.0) rfl rfl nofun)

theorem chest_read_back :
    Statement.read "order = coins".toList = .ok ⟨.assignment, "order", ["coins"]⟩ ∧
      ReadsAs (chestCounted "order").talk.vars.lookup "\torder " (.number 2.0) ∧
      Statement.read "or = coins".toList = .ok ⟨.assignment, "or", ["coins"]⟩ ∧
      ∀ source e, Expr.parse source = .ok e → "or" ∉ e.names := by
  have horder : Statement.read "order = coins".toList = .ok ⟨.assignment, "order", ["coins"]⟩ := by
    decide +kernel
  have hor : Statement.read "or = coins".toList = .ok ⟨.assignment, "or", ["coins"]⟩ := by
    decide +kernel
  have halone : Alone "order" "\torder " :=
    ⟨['\t'], [' '], rfl, List.forall_mem_singleton.mpr rfl, List.forall_mem_singleton.mpr rfl⟩
  obtain ⟨-, hread⟩ := (Turn.assigned_read_back horder).2 (by decide)
  exact ⟨horder, hread _ "chest" _ _ (chest_counted "order") _ rfl _ halone, hor,
    (Turn.assigned_read_back hor).1 (by decide)⟩

/-- What was set to a number counts as true, but its name is still read as false. -/
theorem chest_false_not_read_back :
    Statement.read "false = coins".toList = .ok ⟨.assignment, "false", ["coins"]⟩ ∧
      Expression.parse "false" = .ok ⟨"false", .literal (.bool false)⟩ ∧
      (Turn.fresh chestTalk).Assigns (chestCounted "false") "false" (.number 2.0) ∧
      ¬ ReadsAs (chestCounted "false").talk.vars.lookup "false" (.number 2.0) := by
  have hparse : Expr.parse "false" = .ok (.literal (.bool false)) :=
    Expr.parse_of_toOption (by decide +kernel)
  refine ⟨by decide +kernel, Expression.parse_eq_ok_iff.mpr ⟨hparse, by decide +kernel⟩,
    chest_counted "false", fun hreads => ?_⟩
  obtain ⟨e, he, hvalue⟩ := hreads.value
  cases hparse.symm.trans he
  cases hvalue

end Conversation

end Parley
