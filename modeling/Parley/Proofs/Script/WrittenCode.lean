import Parley.Proofs.Script.Accepted

/-!
# Code that is written again

Whatever a statement was read from, its written form is read to the same statement. Parentheses in
the value of an assignment need not match, and the value may hold separators of any kind; what
matters is that the value ended where the scan of the line was at top level. So a block that is
written one statement to a line keeps all its statements, and nothing but their expressions is
reported.
-/

namespace Parley

namespace Code

/-- An expression that is missing or cannot be parsed drops no statement. -/
theorem warning_of_mem_statementProblems {s : Statement} {p : Problem}
    (h : p ∈ statementProblems s) : p.severity = .warning := by
  have hexpression : ∀ {source : String}, p ∈ expressionProblems source →
      p.severity = .warning := by
    intro source hmem
    unfold expressionProblems at hmem
    split at hmem
    · cases hmem
    · rw [List.mem_singleton.mp hmem]
      rfl
  unfold statementProblems at h
  split at h
  · rw [List.mem_singleton.mp h]
    rfl
  · obtain ⟨source, -, hmem⟩ := List.mem_flatMap.mp h
    exact hexpression hmem

/-- A statement that can be read is read again from its written form. A block of code, whatever
lines it was read from, is read again from its statements as they are written, one to a line with a
semicolon behind each, and no error is reported. -/
theorem written_code_reads_back :
    (∀ (text : List Char) (s : Statement), Statement.read text = .ok s →
      Statement.read s.write = .ok s) ∧
    ∀ body lines : List Line,
      lines.map Line.text = (statements body).map (fun s => s.write ++ [';']) →
      statements lines = statements body ∧ ∀ d ∈ diagnostics lines, d.isError = false := by
  constructor
  · intro text s hread
    exact Statement.read_write (Statement.wellFormed_of_read hread)
  · intro body lines hlines
    obtain ⟨hstatements, hproblems⟩ := statements_written wellFormed_of_mem_statements hlines
    refine ⟨hstatements, fun d hd => ?_⟩
    have hproblem := List.mem_map_of_mem (f := Diagnostic.problem) hd
    rw [hproblems] at hproblem
    obtain ⟨s, -, hs⟩ := List.mem_flatMap.mp hproblem
    rw [Diagnostic.isError, Diagnostic.severity, warning_of_mem_statementProblems hs]
    rfl

/-! Values with open ends, separators between quotes, and an assignment without a value. -/

def oddBody : List Line :=
  ["x = )(; say( ',)' ,(1; 2) );lost(", "y == ';' ; z=;"].map fun text =>
    ⟨⟨1, ⟨0, 0⟩⟩, text.toList⟩

def oddLines : List Line :=
  ["x = )(;", "say(',)', (1; 2));", "y = = ';';", "z =;"].map fun text =>
    ⟨⟨2, ⟨0, 0⟩⟩, text.toList⟩

theorem oddBody_reads_back :
    (∀ text ∈ ["x = )(", " say( ',)' ,(1; 2) )", "y == ';' "], ∃ s,
      Statement.read text.toList = .ok s ∧ Statement.read s.write = .ok s) ∧
    oddLines.map Line.text = (statements oddBody).map (fun s => s.write ++ [';']) ∧
    statements oddBody = [.assign "x" ")(", .call "say" ["',)'", "(1; 2)"],
      .assign "y" "= ';'", ⟨.assignment, "z", []⟩] ∧
    statements oddLines = statements oddBody ∧ ∀ d ∈ diagnostics oddLines, d.isError = false := by
  obtain ⟨hstatement, hblock⟩ := written_code_reads_back
  have hlines : oddLines.map Line.text =
      (statements oddBody).map (fun s => s.write ++ [';']) := by decide +kernel
  refine ⟨fun text htext => ?_, hlines, by decide +kernel, hblock oddBody oddLines hlines⟩
  have hread : ∀ text ∈ ["x = )(", " say( ',)' ,(1; 2) )", "y == ';' "],
      (Statement.read text.toList).isOk = true := by decide +kernel
  obtain ⟨s, hs⟩ : ∃ s, Statement.read text.toList = .ok s := by
    have hok := hread text htext
    cases hcase : Statement.read text.toList with
    | error fault => simp [hcase, Except.isOk, Except.toBool] at hok
    | ok s => exact ⟨s, rfl⟩
  exact ⟨s, hs, hstatement text.toList s hs⟩

end Code

end Parley
