import Parley.Proofs.Script.Accepted
import Parley.Proofs.Script.Moving

/-!
# Scripts without diagnostics

Every expression in a script is parsed once when the script is read, though only its source is
kept. Where nothing was reported, every condition and every argument of the graph can be parsed
again, and every assignment has the expression that it needs.
-/

namespace Parley

/-- All arguments can be parsed, and an assignment has just one. -/
structure Statement.Checked (s : Statement) : Prop where
  args : ∀ source ∈ s.args, ∃ x, Expression.parse source = .ok x
  single : s.kind = .assignment → ∃ source, s.args = [source]

/-- All expressions of an exit can be read: its condition, and those in its code. -/
structure Exit.Checked (e : Exit) : Prop where
  condition : e.isUnconditional = false → ∃ x, Expression.parse e.condition = .ok x
  statements : ∀ statements, e.target = .code statements → ∀ s ∈ statements, s.Checked

/-- All expressions of a dialogue can be read. -/
def Dialogue.Checked (d : Dialogue) : Prop :=
  ∀ e ∈ d.exits, e.Checked

theorem Expression.exists_parse_iff {source : String} :
    (∃ x, Expression.parse source = .ok x) ↔ ∃ e, Expr.parse source = .ok e := by
  unfold Expression.parse
  cases Expr.parse source with
  | ok e => exact iff_of_true ⟨_, rfl⟩ ⟨e, rfl⟩
  | error cause => exact iff_of_false (by rintro ⟨x, ⟨⟩⟩) (by rintro ⟨e, ⟨⟩⟩)

/-! ### Code -/

namespace Code

/-- No problem is found in an expression exactly where it can be read. -/
theorem expressionProblems_eq_nil_iff {source : String} :
    expressionProblems source = [] ↔ ∃ x, Expression.parse source = .ok x := by
  rw [Expression.exists_parse_iff, expressionProblems]
  cases Expr.parse source <;> simp

/-- A statement in which no problem is found is checked. -/
theorem checked_of_statementProblems {s : Statement} (hform : s.WellFormed)
    (h : statementProblems s = []) : s.Checked := by
  unfold statementProblems at h
  split at h
  · contradiction
  · next hexpression =>
      refine ⟨fun source hsource => ?_, fun hkind => ?_⟩
      · exact expressionProblems_eq_nil_iff.mp (List.flatMap_eq_nil_iff.mp h source hsource)
      · cases hform with
        | empty => exact absurd ⟨rfl, rfl⟩ hexpression
        | @assign name value => exact ⟨value, rfl⟩
        | call => cases hkind

/-- No problem is found in a statement that is checked. -/
theorem statementProblems_of_checked {s : Statement} (h : s.Checked) :
    statementProblems s = [] := by
  have hexpression : ¬ (s.kind = .assignment ∧ s.args = []) := by
    rintro ⟨hkind, hnone⟩
    obtain ⟨source, hsource⟩ := h.single hkind
    rw [hsource] at hnone
    contradiction
  rw [statementProblems, if_neg hexpression, List.flatMap_eq_nil_iff]
  exact fun source hsource => expressionProblems_eq_nil_iff.mpr (h.args source hsource)

theorem checked_of_mem_lineStatements {line : Line} (h : lineProblems line = []) :
    ∀ s ∈ lineStatements line, s.Checked := by
  intro s hs
  obtain ⟨piece, hpiece, hread⟩ := List.mem_filterMap.mp hs
  obtain ⟨hok, hproblems⟩ := readPiece_cases hread
  have hnone := List.flatMap_eq_nil_iff.mp (List.append_eq_nil_iff.mp h).1 piece hpiece
  rw [hproblems] at hnone
  exact checked_of_statementProblems (Statement.wellFormed_of_read hok) hnone

/-- A block of which nothing is reported has only expressions that can be read. -/
theorem checked_of_mem_statements {body : List Line} (h : diagnostics body = []) :
    ∀ s ∈ statements body, s.Checked := by
  intro s hs
  obtain ⟨line, hline, hmem⟩ := List.mem_flatMap.mp hs
  have hnone := List.flatMap_eq_nil_iff.mp h line hline
  exact checked_of_mem_lineStatements (List.map_eq_nil_iff.mp hnone) s hmem

end Code

/-! ### Exits and dialogues -/

namespace Section

variable {reg : Registry}

/-- A condition that is not blank has not been left out of the check. -/
theorem checked_condition {condition : List Char} (h : conditionProblems condition = [])
    (hblank : Text.allBlank (String.ofList condition).toList = false) :
    ∃ x, Expression.parse (String.ofList condition) = .ok x := by
  rw [String.toList_ofList] at hblank
  rw [Expression.exists_parse_iff]
  cases condition with
  | nil => contradiction
  | cons c condition =>
      simp only [conditionProblems, List.isEmpty_cons, Bool.false_eq_true, if_false] at h
      split at h
      · next e he => exact ⟨e, he⟩
      · contradiction

/-- An item of which nothing is reported has an exit whose expressions can all be read. -/
theorem checked_of_itemExit {isOpen : Bool} {i : Item} {e : Exit}
    (hproblems : itemProblems reg isOpen i = []) (hbody : bodyDiagnostics i = [])
    (he : itemExit i = some e) : e.Checked := by
  cases i with
  | redirect condition key =>
      cases key with
      | nil => cases he
      | cons c key =>
          cases he
          refine ⟨checked_condition hproblems, ?_⟩
          rintro statements ⟨⟩
  | code condition body =>
      cases he
      refine ⟨checked_condition hproblems, ?_⟩
      rintro statements ⟨⟩
      exact Code.checked_of_mem_statements hbody
  | _ => cases he

/-- Where nothing is reported of a list of items, nothing is reported of any of them. -/
theorem unreported_of_mem {isOpen : Bool} {items : List Located}
    (h : diagnosticsFrom reg isOpen items = []) :
    ∀ i ∈ items, (∃ isOpen, itemProblems reg isOpen i.item = []) ∧
      bodyDiagnostics i.item = [] := by
  induction items generalizing isOpen with
  | nil => exact List.forall_mem_nil _
  | cons i items ih =>
      obtain ⟨hfirst, hrest⟩ := List.append_eq_nil_iff.mp h
      obtain ⟨hproblems, hbody⟩ := List.append_eq_nil_iff.mp hfirst
      exact List.forall_mem_cons.mpr
        ⟨⟨⟨isOpen, List.map_eq_nil_iff.mp hproblems⟩, hbody⟩, ih hrest⟩

/-- A section of which nothing is reported makes a dialogue that is checked. -/
theorem checked_dialogue {s : Section} (h : diagnostics reg s = []) :
    (dialogue reg s).Checked := by
  intro e he
  obtain ⟨i, hi, hexit⟩ := List.mem_filterMap.mp he
  obtain ⟨located, hlocated, rfl⟩ := List.mem_map.mp hi
  obtain ⟨⟨isOpen, hproblems⟩, hbody⟩ := unreported_of_mem h located hlocated
  exact checked_of_itemExit hproblems hbody hexit

end Section

/-- A script of which nothing is reported is read to a graph that is checked throughout. -/
theorem Script.checked_of_parse {reg : Registry} {source : String} {script : Script}
    (h : parse reg source = .ok script) (hclean : script.diagnostics = []) :
    ∀ d ∈ script.dialogues, d.Checked := by
  obtain ⟨rfl, -, -⟩ := eq_of_parse h
  intro d hd
  obtain ⟨s, hs, rfl⟩ := List.mem_map.mp hd
  have hsections := (List.append_eq_nil_iff.mp (List.append_eq_nil_iff.mp hclean).1).2
  exact Section.checked_dialogue (List.flatMap_eq_nil_iff.mp hsections s hs)

end Parley
