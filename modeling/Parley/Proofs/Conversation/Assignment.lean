import Mathlib.Logic.Function.Basic
import Parley.Proofs.Conversation.Ending
import Parley.Proofs.Expr.Tokens
import Parley.Proofs.Expr.Typing

/-!
# What an assignment keeps

An assignment changes no variable but its own, and that one only where its expression comes to a
number, or to what counts as one. A truth value stays a truth value where the expression has a type.
It has none where a name in it is not known or a text is negated, and `&&` and `||` may pass over
that part: then the truth value is kept as the number it counts as.
-/

namespace Parley

open Parley.Expr (NamesUnknown NegatesText)

namespace Turn

variable {env : Environment} {e : Expr} {v : Value}

/-- The type of a value, as far as the expression has one. -/
theorem dataType_of_evaluate (h : e.evaluate env = .ok v) (htype : e.dataType env ≠ .undefined) :
    e.dataType env = v.dataType := by
  have hagrees := Expr.evaluate_agrees htype
  rw [h] at hagrees
  generalize e.dataType env = type at hagrees
  cases hagrees with
  | value hv => exact hv.symm

/-- A truth value is kept as one where the type can be told. -/
theorem assignedValue_bool {b : Bool} (h : e.evaluate env = .ok (.bool b))
    (htype : e.dataType env ≠ .undefined) : assignedValue env e = .ok (.bool b) := by
  have hbool : e.dataType env = .bool := dataType_of_evaluate h htype
  simp only [assignedValue, hbool, if_true, Expr.evaluateBool, h, Except.map, Value.toBool]

/-- What is not kept as a truth value is kept as the number it counts as. -/
theorem assignedValue_number {x : Float} (h : e.evaluate env = .ok v)
    (hnumber : v.toNumber? = some x) (htype : e.dataType env ≠ .bool) :
    assignedValue env e = .ok (.number x) := by
  simp only [assignedValue, if_neg htype, Expr.evaluateNumber, h, hnumber, Except.map]

/-- An expression that evaluates to no truth value is never taken for one. -/
theorem dataType_ne_bool (h : e.evaluate env = .ok v) (hv : ∀ b, v ≠ .bool b) :
    e.dataType env ≠ .bool := by
  intro hbool
  have htype : e.dataType env ≠ .undefined := by
    rw [hbool]
    exact DataType.noConfusion
  rw [dataType_of_evaluate h htype] at hbool
  cases v with
  | bool b => exact hv b rfl
  | number x => cases hbool
  | string s => cases hbool

/-- An expression that comes to nothing, or to a text that is no number, is not kept. -/
theorem assignedValue_error (h : ∀ v, e.evaluate env = .ok v → v.toNumber? = none) :
    ∃ cause, assignedValue env e = .error cause := by
  unfold assignedValue Expr.evaluateBool Expr.evaluateNumber
  cases hvalue : e.evaluate env with
  | error cause =>
      refine ⟨cause, ?_⟩
      split <;> rfl
  | ok v =>
      have hnone := h v hvalue
      have hv : ∀ b, v ≠ .bool b := by
        rintro b rfl
        cases hnone
      refine ⟨.conversion .number v.dataType, ?_⟩
      rw [if_neg (dataType_ne_bool hvalue hv)]
      simp only [hnone, Except.map]

/-- One turn has the variables of the other, but for the one that has a new value. -/
def Assigns (t u : Turn) (name : String) (v : Value) : Prop :=
  u.talk.vars.lookup = Function.update t.talk.vars.lookup name (some v)

variable {t : Turn} {name source : String}

/-- An expression with a value to assign is assigned, and nothing else changes. -/
theorem assigns_of_ok (hparse : Expr.parse source = .ok e)
    (hvalue : assignedValue t.talk.vars.lookup e = .ok v) :
    t.Assigns (t.update fun c => assign c name source) name v := by
  have hbind : (Expr.parse source).bind (assignedValue t.talk.vars.lookup) = .ok v := by
    rw [hparse]
    exact hvalue
  simp only [Assigns, update, assign, hbind]
  ext1 other
  rw [Variables.lookup_set, Function.update_apply]
  simp only [eq_comm]

/-- An expression without one changes no variable. -/
theorem vars_assign_of_error {cause : ExprError}
    (h : (Expr.parse source).bind (assignedValue t.talk.vars.lookup) = .error cause) :
    (assign t.talk name source).vars = t.talk.vars := by
  simp only [assign, h]
  rfl

/-- An assignment in a code block sets its variable to the truth value or the number that its
expression comes to, and changes nothing where it comes to neither. Only where the expression has
no type, and so passes over what is the matter with it, does a truth value become a number. -/
theorem assignment_keeps (hop : Hop) (dialogue name source : String) (args : List String)
    (t : Turn) :
    ∃ u : Turn, execute hop dialogue ⟨.assignment, name, source :: args⟩ t = u.done ∧
      (∀ e b, Expr.parse source = .ok e → e.evaluate t.talk.vars.lookup = .ok (.bool b) →
        ¬ (NamesUnknown t.talk.vars.lookup e ∨ NegatesText t.talk.vars.lookup e) →
        t.Assigns u name (.bool b)) ∧
      (∀ e b, Expr.parse source = .ok e → e.evaluate t.talk.vars.lookup = .ok (.bool b) →
        (NamesUnknown t.talk.vars.lookup e ∨ NegatesText t.talk.vars.lookup e) →
        t.Assigns u name (.number (if b then 1.0 else 0.0))) ∧
      (∀ e v x, Expr.parse source = .ok e → e.evaluate t.talk.vars.lookup = .ok v →
        (∀ b, v ≠ .bool b) → v.toNumber? = some x → t.Assigns u name (.number x)) ∧
      ((∀ e v, Expr.parse source = .ok e → e.evaluate t.talk.vars.lookup = .ok v →
        v.toNumber? = none) → u.talk.vars = t.talk.vars) := by
  refine ⟨t.update fun c => assign c name source, rfl, ?_, ?_, ?_, ?_⟩
  · intro e b hparse hvalue hknown
    rw [← Expr.dataType_eq_undefined_iff] at hknown
    exact assigns_of_ok hparse (assignedValue_bool hvalue hknown)
  · intro e b hparse hvalue hunknown
    rw [← Expr.dataType_eq_undefined_iff] at hunknown
    apply assigns_of_ok hparse
    apply assignedValue_number hvalue rfl
    rw [hunknown]
    exact DataType.noConfusion
  · intro e v x hparse hvalue hv hnumber
    exact assigns_of_ok hparse (assignedValue_number hvalue hnumber (dataType_ne_bool hvalue hv))
  · intro hnothing
    obtain ⟨cause, hcause⟩ : ∃ cause,
        (Expr.parse source).bind (assignedValue t.talk.vars.lookup) = .error cause := by
      cases hparse : Expr.parse source with
      | error cause => exact ⟨cause, rfl⟩
      | ok e => exact assignedValue_error (hnothing e · hparse)
    exact vars_assign_of_error hcause

end Turn

namespace Conversation

/-! A chest that opens whatever the key, in a script that never sets one. -/

def chest : Dialogue :=
  { name := "chest"
    elements := [{ text := "It is shut." }]
    exits := [⟨"", .code [⟨.assignment, "opened", ["true || key"]⟩]⟩] }

def chestStore : Store :=
  { name := "chests"
    dialogues := [chest]
    index := Std.TreeMap.insert {} "chest" 0
    indexed := Store.indexes_nil.insert (d := chest) rfl }

def chestTalk : Conversation :=
  (new {} 0).performAll [.addStore chestStore, .setVariable "shut" (.bool false),
    .setVariable "coins" (.number 2.0), .setVariable "owner" (.string "Bob"), .start "chest"]

/-- The turn behind the statement `opened = source`. -/
def chestAfter (source : String) : Turn :=
  (Turn.execute (Turn.follow 8) "chest" ⟨.assignment, "opened", [source]⟩
    (Turn.fresh chestTalk)).turn

theorem chest_assignments :
    (Turn.fresh chestTalk).Assigns (chestAfter "!shut") "opened" (.bool true) ∧
      (Turn.fresh chestTalk).Assigns (chestAfter "true || key") "opened" (.number 1.0) ∧
      (Turn.fresh chestTalk).Assigns (chestAfter "coins") "opened" (.number 2.0) ∧
      (chestAfter "owner").talk.vars = chestTalk.vars := by
  refine ⟨?_, ?_, ?_, ?_⟩
  · obtain ⟨u, hrun, htruth, -⟩ := Turn.assignment_keeps (Turn.follow 8) "chest" "opened"
      "!shut" [] (Turn.fresh chestTalk)
    have hparse : Expr.parse "!shut" = .ok (.unary .not (.variable "shut")) :=
      Expr.parse_of_toOption (by decide +kernel)
    rw [chestAfter, hrun]
    refine htruth _ true hparse rfl ?_
    rw [← Expr.dataType_eq_undefined_iff]
    exact DataType.noConfusion
  · obtain ⟨u, hrun, -, hcount, -⟩ := Turn.assignment_keeps (Turn.follow 8) "chest" "opened"
      "true || key" [] (Turn.fresh chestTalk)
    have hparse : Expr.parse "true || key" =
        .ok (.binary .or (.literal (.bool true)) (.variable "key")) :=
      Expr.parse_of_toOption (by decide +kernel)
    rw [chestAfter, hrun]
    exact hcount _ true hparse rfl (.inl ⟨"key", List.mem_singleton_self _, rfl⟩)
  · obtain ⟨u, hrun, -, -, hnumber, -⟩ := Turn.assignment_keeps (Turn.follow 8) "chest" "opened"
      "coins" [] (Turn.fresh chestTalk)
    have hparse : Expr.parse "coins" = .ok (.variable "coins") :=
      Expr.parse_of_toOption (by decide +kernel)
    rw [chestAfter, hrun]
    refine hnumber _ (.number 2.0) 2.0 hparse rfl ?_ rfl
    exact fun b hsame => by cases hsame
  · obtain ⟨u, hrun, -, -, -, hnothing⟩ := Turn.assignment_keeps (Turn.follow 8) "chest" "opened"
      "owner" [] (Turn.fresh chestTalk)
    have hparse : Expr.parse "owner" = .ok (.variable "owner") :=
      Expr.parse_of_toOption (by decide +kernel)
    rw [chestAfter, hrun]
    refine hnothing fun e v hread hvalue => ?_
    rw [hparse] at hread
    cases hread
    cases hvalue
    rfl

/-- The host sees a number where the expression came to a truth value. -/
theorem chest_opened_as_number :
    (∃ e, Expr.parse "true || key" = .ok e ∧
      e.evaluate chestTalk.vars.lookup = .ok (.bool true)) ∧
    (chestTalk.perform (.advance 0)).vars.lookup "opened" = some (.number 1.0) ∧
    (chestTalk.perform (.advance 0)).vars.lookup "opened" ≠ some (.bool true) := by
  have hopened : (chestTalk.perform (.advance 0)).vars.lookup "opened" = some (.number 1.0) := by
    decide +kernel
  have hparse : Expr.parse "true || key" =
      .ok (.binary .or (.literal (.bool true)) (.variable "key")) :=
    Expr.parse_of_toOption (by decide +kernel)
  refine ⟨⟨_, hparse, rfl⟩, hopened, ?_⟩
  rw [hopened]
  exact fun hsame => by cases hsame

end Conversation

end Parley
