import Parley.Proofs.Script.Statement

/-!
# Statements that are accepted

What the reader of statements hands on, whatever text it was given. A statement that stood in a
line of code also lies on that line, and a value ends at the semicolon behind it.
-/

namespace Parley

open Text (Trimmed trim allBlank breakOn? dropLast?)

theorem Script.solid_trim {cs : List Char} (h : trim cs ≠ []) : Solid (trim cs) :=
  ⟨h, Text.trimmed_trim cs⟩

namespace Statement

open Script (Solid)

/-- A statement that ended at a semicolon of its line. -/
structure InCode (s : Statement) : Prop where
  wellFormed : s.WellFormed
  single : ∀ arg ∈ s.args, '\n' ∉ arg.toList
  piece : s.kind = .assignment → ∀ value ∈ s.args, Nesting.IsPiece ';' value.toList

/-- A statement of a line of code can be written, unless an argument opens a comment. -/
theorem InCode.writable {s : Statement} (h : s.InCode)
    (huncommented : ∀ arg ∈ s.args, ¬ ['/', '*'] <:+: arg.toList) : s.Writable := by
  obtain ⟨hform, hsingle, hpiece⟩ := h
  cases hform with
  | empty hname => exact .empty hname
  | @assign name value hname hsolid =>
      have hmem : value ∈ (assign name value).args := List.mem_singleton_self value
      have hplain : Script.Plain value.toList := ⟨hsingle value hmem, huncommented value hmem⟩
      exact .assign hname ⟨⟨hsolid.ne_nil, hsolid.trimmed, hplain⟩, hpiece rfl value hmem⟩
  | call hname hargs =>
      refine .call hname fun arg harg => ?_
      have hoperand := hargs arg harg
      have hplain : Script.Plain arg.toList := ⟨hsingle arg harg, huncommented arg harg⟩
      exact ⟨⟨hoperand.solid.ne_nil, hoperand.solid.trimmed, hplain⟩, hoperand.unequal,
        hoperand.balanced, hoperand.whole⟩

/-! ### How a statement was read -/

variable {cs : List Char} {s : Statement}

/-- An assignment has a name for its target; without a value it assigns nothing. -/
theorem readAssignment_cases {target value : List Char}
    (h : readAssignment target value = .ok s) :
    Lexer.isName (trim target) = true ∧
      ((trim value = [] ∧ s = ⟨.assignment, String.ofList (trim target), []⟩) ∨
        (trim value ≠ [] ∧
          s = assign (String.ofList (trim target)) (String.ofList (trim value)))) := by
  simp only [readAssignment] at h
  split at h
  · contradiction
  · next hname =>
      have hs := Except.ok.inj h
      refine ⟨by simpa using hname, ?_⟩
      by_cases hvalue : trim value = []
      · exact .inl ⟨hvalue, by simp [← hs, hvalue]⟩
      · exact .inr ⟨hvalue, by simp [← hs, hvalue, assign]⟩

/-- Blank parentheses hold no argument; in others every piece is one. -/
theorem readArguments_cases {name : String} {inner : List Char}
    (h : readArguments name inner = .ok s) :
    ∃ args, s = call name args ∧ ∀ arg ∈ args,
      ∃ piece ∈ splitTopLevel ',' inner, trim piece ≠ [] ∧ arg = String.ofList (trim piece) := by
  simp only [readArguments] at h
  split at h
  · exact ⟨[], (Except.ok.inj h).symm, fun arg harg => absurd harg List.not_mem_nil⟩
  · split at h
    · contradiction
    · next hempty =>
        refine ⟨_, (Except.ok.inj h).symm, ?_⟩
        intro arg harg
        obtain ⟨text, htext, rfl⟩ := List.mem_map.mp harg
        obtain ⟨piece, hpiece, rfl⟩ := List.mem_map.mp htext
        refine ⟨piece, hpiece, ?_, rfl⟩
        intro hnil
        exact hempty (List.any_eq_true.mpr ⟨_, htext, by rw [hnil]; rfl⟩)

/-- A call has a name, and for arguments the pieces between its parentheses that are not blank. -/
theorem readCall_cases (h : readCall cs = .ok s) :
    ∃ before inner, inner <:+: cs ∧ Lexer.isName (trim before) = true ∧
      balanced inner = true ∧ ∃ args, s = call (String.ofList (trim before)) args ∧
        ∀ arg ∈ args, ∃ piece ∈ splitTopLevel ',' inner,
          trim piece ≠ [] ∧ arg = String.ofList (trim piece) := by
  rw [readCall] at h
  split at h
  · contradiction
  · next before after hbreak =>
      split at h
      · contradiction
      · next inner hlast =>
          have hinner : inner <:+: cs := by
            rw [Text.eq_append_of_breakOn? hbreak, Text.eq_append_of_dropLast? hlast]
            exact ⟨before ++ ['('], [')'], by simp⟩
          simp only at h
          split at h
          · contradiction
          · next hname =>
              split at h
              · contradiction
              · next hbalanced =>
                  exact ⟨before, inner, hinner, by simpa using hname, by simpa using hbalanced,
                    readArguments_cases h⟩

/-- Every statement that is accepted is an assignment, split at its first equals sign, or a call
without one. -/
theorem read_cases (h : read cs = .ok s) :
    (∃ target value, trim cs = target ++ '=' :: value ∧
      readAssignment target value = .ok s) ∨
    ('=' ∉ trim cs ∧ readCall (trim cs) = .ok s) := by
  simp only [read] at h
  split at h
  · next target value hbreak =>
      exact .inl ⟨target, value, Text.eq_append_of_breakOn? hbreak, h⟩
  · next hnone =>
      refine .inr ⟨fun hmem => ?_, h⟩
      obtain ⟨before, after, hcs⟩ := List.append_of_mem hmem
      exact Text.not_infix_of_breakOn?_eq_none hnone ⟨before, after, by rw [hcs]; simp⟩

/-- A piece that was cut off at a comma can stand between commas again. -/
theorem isOperand_trim {piece : List Char} (hne : trim piece ≠ []) (hunequal : '=' ∉ piece)
    (hwhole : Nesting.Whole ',' {} piece) (hbalanced : Parley.balanced piece = true) :
    IsOperand (String.ofList (trim piece)) := by
  constructor <;> rw [String.toList_ofList]
  · exact Script.solid_trim hne
  · exact Text.notMem_trim hunequal
  · exact Nesting.balanced_trim hbalanced
  · exact Nesting.whole_trim hwhole

/-- Every statement that is read is well-formed. -/
theorem wellFormed_of_read (h : read cs = .ok s) : s.WellFormed := by
  obtain ⟨target, value, -, hassign⟩ | ⟨hunequal, hcall⟩ := read_cases h
  · obtain ⟨hname, ⟨-, rfl⟩ | ⟨hvalue, rfl⟩⟩ := readAssignment_cases hassign
    · exact .empty (by rwa [String.toList_ofList])
    · refine .assign (by rwa [String.toList_ofList]) ?_
      rw [String.toList_ofList]
      exact Script.solid_trim hvalue
  · obtain ⟨before, inner, hinner, hname, hbalanced, args, rfl, hargs⟩ := readCall_cases hcall
    refine .call (by rwa [String.toList_ofList]) fun arg harg => ?_
    obtain ⟨piece, hpiece, hne, rfl⟩ := hargs arg harg
    have hcut := Nesting.Cut.of_split ',' {} inner
    have hpart := (hcut.infix_of_mem piece hpiece).trans hinner
    exact isOperand_trim hne (fun hmem => hunequal (hpart.subset hmem))
      (hcut.whole_of_mem piece hpiece) (hcut.balanced_of_mem (by decide) hbalanced piece hpiece)

/-- The arguments stand in the source as they are kept. -/
theorem infix_of_read (h : read cs = .ok s) : ∀ arg ∈ s.args, arg.toList <:+: cs := by
  intro arg harg
  refine List.IsInfix.trans ?_ (Text.trim_isInfix cs)
  obtain ⟨target, value, hcs, hassign⟩ | ⟨-, hcall⟩ := read_cases h
  · have hvalue : trim value <:+: trim cs := by
      rw [hcs]
      exact (Text.trim_isInfix value).trans ⟨target ++ ['='], [], by simp⟩
    obtain ⟨-, ⟨-, rfl⟩ | ⟨-, rfl⟩⟩ := readAssignment_cases hassign
    · exact absurd harg List.not_mem_nil
    · rw [List.mem_singleton.mp harg, String.toList_ofList]
      exact hvalue
  · obtain ⟨before, inner, hinner, -, -, args, rfl, hargs⟩ := readCall_cases hcall
    obtain ⟨piece, hpiece, -, rfl⟩ := hargs arg harg
    rw [String.toList_ofList]
    exact (Text.trim_isInfix piece).trans
      (((Nesting.Cut.of_split ',' {} inner).infix_of_mem piece hpiece).trans hinner)

/-- A name with blanks around it opens nothing. -/
theorem after_target {target : List Char} (h : Lexer.isName (trim target) = true) :
    Nesting.after {} (target ++ ['=']) = {} := by
  obtain ⟨-, -, -, -, hafter, -⟩ := Nesting.exists_eq_append_trim target
  have hname := (Lexer.isPiece_of_isName h (by decide : Lexer.isNameChar ';' = false)).after_eq
  rw [Nesting.after_append, ← hafter, hname]
  rfl

/-- The value of a statement reaches no further than the piece it was read from. -/
theorem bounded_of_read (h : read cs = .ok s) (hcs : Nesting.IsPiece ';' cs) : s.Bounded := by
  intro hkind arg harg
  obtain ⟨target, value, htrim, hassign⟩ | ⟨-, hcall⟩ := read_cases h
  · obtain ⟨hname, ⟨-, rfl⟩ | ⟨-, rfl⟩⟩ := readAssignment_cases hassign
    · exact absurd harg List.not_mem_nil
    · have hpiece : Nesting.IsPiece ';' ((target ++ ['=']) ++ value) := by
        rw [List.append_assoc, List.singleton_append, ← htrim]
        exact hcs.trim
      rw [List.mem_singleton.mp harg, String.toList_ofList]
      exact (hpiece.of_append (after_target hname)).trim
  · obtain ⟨before, inner, -, -, -, args, rfl, -⟩ := readCall_cases hcall
    contradiction

end Statement

/-! ### Lines of code -/

namespace Code

/-- A piece of a line that holds a statement reports what is wrong with that statement only. -/
theorem readPiece_cases {piece : List Char} {s : Statement}
    (h : (readPiece piece).1 = some s) :
    Statement.read (trim piece) = .ok s ∧ (readPiece piece).2 = statementProblems s := by
  unfold readPiece at h ⊢
  split at h
  · contradiction
  · next htrim =>
      simp only [htrim]
      split at h
      · next hok =>
          cases Option.some.inj h
          simp only [hok, and_self]
      · contradiction

/-- A statement of a line was read from a part of the line that ends at a semicolon. -/
theorem exists_piece_of_mem {line : Line} {s : Statement} (h : s ∈ lineStatements line) :
    ∃ piece, piece <:+: line.text ∧ Nesting.IsPiece ';' piece ∧ Statement.read piece = .ok s := by
  obtain ⟨piece, hpiece, hread⟩ := List.mem_filterMap.mp h
  have hcut := Nesting.Cut.of_split ';' {} line.text
  have hpart := hcut.infix_of_mem piece (List.mem_of_mem_dropLast hpiece)
  exact ⟨trim piece, (Text.trim_isInfix piece).trans hpart,
    (hcut.isPiece_of_mem_dropLast piece hpiece).trim, (readPiece_cases hread).1⟩

theorem wellFormed_of_mem_statements {body : List Line} :
    ∀ s ∈ statements body, s.WellFormed ∧ s.Bounded := by
  intro s hs
  obtain ⟨line, -, hmem⟩ := List.mem_flatMap.mp hs
  obtain ⟨piece, -, hpiece, hread⟩ := exists_piece_of_mem hmem
  exact ⟨Statement.wellFormed_of_read hread, Statement.bounded_of_read hread hpiece⟩

/-- All statements of a block lie on their lines. -/
theorem inCode_of_mem_statements {body : List Line} (h : ∀ line ∈ body, '\n' ∉ line.text) :
    ∀ s ∈ statements body, s.InCode := by
  intro s hs
  obtain ⟨hform, hbounded⟩ := wellFormed_of_mem_statements s hs
  obtain ⟨line, hline, hmem⟩ := List.mem_flatMap.mp hs
  obtain ⟨piece, hpart, -, hread⟩ := exists_piece_of_mem hmem
  refine ⟨hform, fun arg harg hbreak => h line hline ?_, hbounded⟩
  exact hpart.subset ((Statement.infix_of_read hread arg harg).subset hbreak)

end Code

end Parley
