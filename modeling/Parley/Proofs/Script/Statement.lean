import Parley.Proofs.Expr.Lexing
import Parley.Proofs.Script.Writable
import Parley.Proofs.Text.Split
import Parley.Script.Code

/-!
# Statements read back

A written statement is read back to the statement, whatever its arguments hold between quotes and
parentheses. It is one piece of a line of code unless its value is cut at a semicolon.
-/

namespace Parley

/-! ### Names -/

namespace Lexer

theorem notMem_of_isName {name : List Char} (h : isName name = true) {d : Char}
    (hd : isNameChar d = false) : d ∉ name := by
  intro hmem
  rw [isNameChar_of_mem h hmem] at hd
  contradiction

theorem trimmed_of_isName {name : List Char} (h : isName name = true) : Text.Trimmed name :=
  Text.trimmed_of_forall fun _ hc => isBlank_of_isNameChar (isNameChar_of_mem h hc)

theorem plain_of_isName {name : List Char} (h : isName name = true) : Script.Plain name := by
  refine ⟨notMem_of_isName h (by decide), fun hpart => ?_⟩
  exact notMem_of_isName h (by decide : isNameChar '/' = false) (hpart.subset List.mem_cons_self)

theorem isPiece_of_isName {name : List Char} (h : isName name = true) {sep : Char}
    (hsep : isNameChar sep = false) : Nesting.IsPiece sep name := by
  apply Nesting.isPiece_of_inert
  intro c hc
  have hne : ∀ {d}, isNameChar d = false → c ≠ d := by
    rintro d hd rfl
    exact notMem_of_isName h hd hc
  refine ⟨?_, hne hsep⟩
  simp [Nesting.isInert, hne (by decide : isNameChar '"' = false),
    hne (by decide : isNameChar '\x27' = false), hne (by decide : isNameChar '(' = false),
    hne (by decide : isNameChar ')' = false)]

theorem exists_cons_of_isName {name : List Char} (h : isName name = true) :
    ∃ c rest, name = c :: rest ∧ isNameChar c = true := by
  cases name with
  | nil => simp [isName] at h
  | cons c rest => exact ⟨c, rest, rfl, isNameChar_of_mem h List.mem_cons_self⟩

end Lexer

/-- Something is there, and no blank around it. -/
structure Script.Solid (cs : List Char) : Prop where
  ne_nil : cs ≠ []
  trimmed : Text.Trimmed cs

instance (cs : List Char) : Decidable (Script.Solid cs) :=
  decidable_of_iff (cs ≠ [] ∧ Text.Trimmed cs) ⟨fun h => ⟨h.1, h.2⟩, fun h => ⟨h.1, h.2⟩⟩

theorem Script.Word.solid {word : String} (h : Word word) : Solid word.toList :=
  ⟨h.ne_nil, h.trimmed⟩

namespace Statement

open Script (Solid)
open Text (Trimmed trim allBlank joinWith breakOn? dropLast?)

/-! ### Well-formed statements -/

/-- An argument of a call as it was cut out of the parentheses. -/
structure IsOperand (arg : String) : Prop where
  solid : Solid arg.toList
  unequal : '=' ∉ arg.toList
  balanced : balanced arg.toList = true
  whole : splitTopLevel ',' arg.toList = [arg.toList]

/-- What a statement is like that was read from some text. -/
inductive WellFormed : Statement → Prop where
  | empty {name : String} : Lexer.isName name.toList = true → WellFormed ⟨.assignment, name, []⟩
  | assign {name value : String} : Lexer.isName name.toList = true → Solid value.toList →
      WellFormed (.assign name value)
  | call {name : String} {args : List String} : Lexer.isName name.toList = true →
      (∀ arg ∈ args, IsOperand arg) → WellFormed (.call name args)

/-- The value of an assignment is not cut at a semicolon and leaves nothing open. -/
def Bounded (s : Statement) : Prop :=
  s.kind = .assignment → ∀ value ∈ s.args, Nesting.IsPiece ';' value.toList

/-- A statement that can be written is one that could have been read. -/
theorem Writable.wellFormed {s : Statement} (h : s.Writable) : s.WellFormed := by
  cases h with
  | empty hname => exact .empty hname
  | assign hname hvalue => exact .assign hname hvalue.word.solid
  | call hname hargs =>
      refine .call hname fun arg harg => ?_
      have hargument := hargs arg harg
      exact ⟨hargument.word.solid, hargument.unequal, hargument.balanced, hargument.whole⟩

theorem Writable.bounded {s : Statement} (h : s.Writable) : s.Bounded := by
  intro hkind value hmem
  cases h with
  | empty => exact absurd hmem List.not_mem_nil
  | assign _ hvalue =>
      rw [List.mem_singleton.mp hmem]
      exact hvalue.piece
  | call => cases hkind

theorem write_empty (name : String) :
    write ⟨.assignment, name, []⟩ = name.toList ++ ' ' :: '=' :: [] := rfl

theorem write_assign (name value : String) :
    (assign name value).write = name.toList ++ ' ' :: '=' :: ' ' :: value.toList := by
  simp [write, assign]

theorem write_call (name : String) (args : List String) :
    (call name args).write =
      name.toList ++ '(' :: (joinWith [',', ' '] (args.map String.toList) ++ [')']) := by
  simp [write, call]

/-! ### The text of a statement -/

theorem IsOperand.piece {arg : String} (h : IsOperand arg) : Nesting.IsPiece ',' arg.toList :=
  ⟨h.whole, Nesting.isTop_after_of_balancedFrom h.balanced⟩

theorem balanced_arguments {args : List String} (h : ∀ arg ∈ args, IsOperand arg) :
    balanced (joinWith [',', ' '] (args.map String.toList)) = true := by
  apply Nesting.balanced_joinWith (by decide)
  intro piece hp
  obtain ⟨arg, harg, rfl⟩ := List.mem_map.mp hp
  exact (h arg harg).balanced

theorem plain_arguments {args : List String} (h : ∀ arg ∈ args, IsArgument arg) :
    Script.Plain (joinWith [',', ' '] (args.map String.toList)) := by
  apply Script.plain_joinWith (by decide) (by decide)
  intro piece hp
  obtain ⟨arg, harg, rfl⟩ := List.mem_map.mp hp
  exact (h arg harg).word.plain

/-- A written statement is not cut at semicolons, and leaves nothing open. -/
theorem write_isPiece {s : Statement} (h : s.WellFormed) (hbounded : s.Bounded) :
    Nesting.IsPiece ';' s.write := by
  cases h with
  | empty hname =>
      have hequals : Nesting.IsPiece ';' [' ', '='] := by decide
      exact (Lexer.isPiece_of_isName hname (by decide)).append hequals
  | @assign name value hname _ =>
      have hequals : Nesting.IsPiece ';' [' ', '=', ' '] := by decide
      have hvalue := hbounded rfl value (List.mem_singleton_self value)
      rw [write_assign]
      exact (Lexer.isPiece_of_isName hname (by decide)).append (hequals.append hvalue)
  | call hname hargs =>
      rw [write_call]
      apply (Lexer.isPiece_of_isName hname (by decide)).append
      exact Nesting.isPiece_parenthesised (by decide) (by decide) (balanced_arguments hargs)

/-- A written statement lies on a line and opens no comment. -/
theorem write_plain {s : Statement} (h : s.Writable) : Script.Plain s.write := by
  cases h with
  | empty hname => simp [write_empty, Lexer.plain_of_isName hname]
  | assign hname hvalue =>
      simp [write_assign, Lexer.plain_of_isName hname, hvalue.word.plain]
  | call hname hargs =>
      simp [write_call, Lexer.plain_of_isName hname, plain_arguments hargs]

/-- A written statement begins with its name and ends without a blank. -/
theorem write_shape {s : Statement} (h : s.WellFormed) :
    ∃ c middle last, s.write = c :: (middle ++ last) ∧ Lexer.isNameChar c = true ∧
      last ≠ [] ∧ Trimmed last := by
  cases h with
  | empty hname =>
      obtain ⟨c, rest, hcons, hc⟩ := Lexer.exists_cons_of_isName hname
      exact ⟨c, rest ++ [' '], ['='], by simp [write_empty, hcons], hc, by decide, by decide⟩
  | assign hname hvalue =>
      obtain ⟨c, rest, hcons, hc⟩ := Lexer.exists_cons_of_isName hname
      exact ⟨c, rest ++ [' ', '=', ' '], _, by simp [write_assign, hcons], hc,
        hvalue.ne_nil, hvalue.trimmed⟩
  | @call _ args hname hargs =>
      obtain ⟨c, rest, hcons, hc⟩ := Lexer.exists_cons_of_isName hname
      exact ⟨c, rest ++ '(' :: joinWith [',', ' '] (args.map String.toList), [')'],
        by simp [write_call, hcons], hc, by decide, by decide⟩

/-- A written statement has no blanks at its ends. -/
theorem write_trimmed {s : Statement} (h : s.WellFormed) : Trimmed s.write := by
  obtain ⟨c, middle, last, hwrite, hc, hne, hlast⟩ := write_shape h
  rw [hwrite]
  exact Trimmed.framed (Lexer.isBlank_of_isNameChar hc) middle hne hlast

/-! ### Reading it -/

theorem joinWith_comma_blank (arg : List Char) (args : List (List Char)) :
    joinWith [',', ' '] (arg :: args) = joinWith [','] (arg :: args.map (' ' :: ·)) := by
  unfold joinWith
  induction args generalizing arg with
  | nil => rfl
  | cons next args ih =>
      rw [List.map_cons, List.intercalate_cons_cons, List.intercalate_cons_cons, ih,
        List.intercalate_cons_cons_left]
      simp

/-- Arguments are read apart at the commas, and kept without the blanks at their ends. -/
theorem readArguments_joinWith (name : String) {pieces : List (List Char)}
    (hpieces : ∀ piece ∈ pieces, Nesting.IsPiece ',' piece)
    (hne : ∀ piece ∈ pieces, trim piece ≠ []) :
    readArguments name (joinWith [','] pieces) =
      .ok (call name (pieces.map fun piece => String.ofList (trim piece))) := by
  cases pieces with
  | nil => rfl
  | cons first rest =>
      have hblank : allBlank (joinWith [','] (first :: rest)) = false := by
        have hpart := Text.infix_joinWith_of_mem [','] (List.mem_cons_self (a := first) (l := rest))
        rw [← Bool.not_eq_true, allBlank, List.all_eq_true]
        intro hall
        refine hne first List.mem_cons_self ?_
        rw [Text.trim_eq_nil_iff, allBlank, List.all_eq_true]
        exact fun c hc => hall c (hpart.subset hc)
      have hempty : ((first :: rest).map trim).any List.isEmpty = false := by
        simp only [List.any_eq_false, List.mem_map, List.isEmpty_iff]
        rintro _ ⟨piece, hpiece, rfl⟩
        exact hne piece hpiece
      rw [readArguments, hblank, if_neg (by decide),
        Nesting.splitTopLevel_joinWith (List.cons_ne_nil _ _) hpieces]
      simp only [hempty, List.map_map]
      simp [Function.comp_def]

/-- Written arguments are read back, the blank behind each comma trimmed away. -/
theorem readArguments_write (name : String) {args : List String}
    (h : ∀ arg ∈ args, IsOperand arg) :
    readArguments name (joinWith [',', ' '] (args.map String.toList)) = .ok (call name args) := by
  cases args with
  | nil => rfl
  | cons arg args =>
      have htrim : ∀ a ∈ arg :: args, trim a.toList = a.toList := fun a ha =>
        Text.trim_eq_self (h a ha).solid.trimmed
      obtain ⟨harg, hargs⟩ := List.forall_mem_cons.mp h
      obtain ⟨htrimmed, htrims⟩ := List.forall_mem_cons.mp htrim
      have hblank : Nesting.IsPiece ',' [' '] := by decide
      have hkept : args.map (fun a => String.ofList (trim (' ' :: a.toList))) = args := by
        refine (List.map_congr_left fun a ha => ?_).trans (List.map_id _)
        rw [Text.trim_space_cons, htrims a ha, String.ofList_toList]
        rfl
      rw [List.map_cons, joinWith_comma_blank, List.map_map, readArguments_joinWith]
      · rw [List.map_cons, htrimmed, String.ofList_toList, List.map_map]
        exact congrArg (fun rest => Except.ok (call name (arg :: rest))) hkept
      · exact List.forall_mem_cons.mpr ⟨harg.piece, List.forall_mem_map.mpr fun a ha =>
          hblank.append (hargs a ha).piece⟩
      · refine List.forall_mem_cons.mpr ⟨?_, List.forall_mem_map.mpr fun a ha => ?_⟩
        · rw [htrimmed]
          exact harg.solid.ne_nil
        · rw [Function.comp_apply, Text.trim_space_cons, htrims a ha]
          exact (hargs a ha).solid.ne_nil

/-- The name of an assignment stands in front of the equals sign, with any blanks around it. -/
theorem readAssignment_eq {name : String} (hname : Lexer.isName name.toList = true)
    {target : List Char} (htarget : trim target = name.toList) (value : List Char) :
    readAssignment target value =
      .ok ⟨.assignment, name,
        if (trim value).isEmpty then [] else [String.ofList (trim value)]⟩ := by
  simp only [readAssignment, htarget, hname, String.ofList_toList]
  rfl

/-- That of a call stands in front of the first parenthesis. -/
theorem readCall_eq {name : String} (hname : Lexer.isName name.toList = true)
    {target : List Char} (htarget : trim target = name.toList) (hopen : '(' ∉ target)
    {inner : List Char} (hinner : balanced inner = true) :
    readCall (target ++ '(' :: (inner ++ [')'])) = readArguments name inner := by
  have hbreak := Text.breakOn?_at_first hopen [] (inner ++ [')'])
  rw [List.cons_append, List.nil_append] at hbreak
  simp only [readCall, hbreak, Text.dropLast?_append, htarget, hname, hinner, String.ofList_toList]
  rfl

theorem trim_name_space {name : String} (h : Lexer.isName name.toList = true) :
    trim (name.toList ++ [' ']) = name.toList := by
  rw [Text.trim_append_space, Text.trim_eq_self (Lexer.trimmed_of_isName h)]

theorem breakOn?_equals {name : List Char} (h : Lexer.isName name = true) (value : List Char) :
    breakOn? ['='] (name ++ ' ' :: '=' :: value) = some (name ++ [' '], value) := by
  have hbefore : '=' ∉ name ++ [' '] := by
    simp [Lexer.notMem_of_isName h (by decide : Lexer.isNameChar '=' = false)]
  have hbreak := Text.breakOn?_at_first hbefore [] value
  rwa [List.append_assoc] at hbreak

/-- A written call is read back. -/
theorem readCall_write {name : String} (hname : Lexer.isName name.toList = true)
    {args : List String} (h : ∀ arg ∈ args, IsOperand arg) :
    readCall (call name args).write = .ok (call name args) := by
  rw [write_call, readCall_eq hname (Text.trim_eq_self (Lexer.trimmed_of_isName hname))
    (Lexer.notMem_of_isName hname (by decide)) (balanced_arguments h)]
  exact readArguments_write name h

theorem unequal_call {name : String} (hname : Lexer.isName name.toList = true)
    {args : List String} (h : ∀ arg ∈ args, IsOperand arg) :
    '=' ∉ (call name args).write := by
  have hname' : '=' ∉ name.toList := Lexer.notMem_of_isName hname (by decide)
  have hargs : '=' ∉ joinWith [',', ' '] (args.map String.toList) := by
    apply Text.notMem_joinWith (by decide)
    intro piece hp
    obtain ⟨arg, harg, rfl⟩ := List.mem_map.mp hp
    exact (h arg harg).unequal
  rw [write_call]
  simp [hname', hargs]

/-- Reading undoes writing. -/
theorem read_write {s : Statement} (h : s.WellFormed) : read s.write = .ok s := by
  rw [read, Text.trim_eq_self (write_trimmed h)]
  cases h with
  | empty hname =>
      rw [write_empty, breakOn?_equals hname]
      exact readAssignment_eq hname (trim_name_space hname) []
  | @assign name value hname hvalue =>
      have htrim : trim (' ' :: value.toList) = value.toList := by
        rw [Text.trim_space_cons, Text.trim_eq_self hvalue.trimmed]
      rw [write_assign, breakOn?_equals hname]
      simp only [readAssignment_eq hname (trim_name_space hname), htrim, List.isEmpty_iff,
        hvalue.ne_nil, String.ofList_toList]
      rfl
  | call hname hargs =>
      rw [Text.breakOn?_eq_none_of_notMem (unequal_call hname hargs)]
      exact readCall_write hname hargs

end Statement

/-! ### Lines of code -/

namespace Code

open Text (isBlank joinWith)

variable {s : Statement}

/-- A written statement is read back, and reported as it is by itself. -/
theorem readPiece_write (h : s.WellFormed) :
    readPiece s.write = (some s, statementProblems s) := by
  have hread := Statement.read_write h
  obtain ⟨c, middle, last, hwrite, -⟩ := Statement.write_shape h
  rw [readPiece, Text.trim_eq_self (Statement.write_trimmed h)]
  rw [hwrite] at hread ⊢
  simp only [hread]

/-! Any number of pieces may stand on a line, and blanks behind the last semicolon. -/

section Pieces

variable {pieces : List (List Char)} {trail : List Char}

theorem flatMap_semicolon (pieces : List (List Char)) (trail : List Char) :
    (pieces.flatMap fun piece => piece ++ [';']) ++ trail = joinWith [';'] (pieces ++ [trail]) := by
  unfold joinWith
  induction pieces with
  | nil => simp
  | cons piece pieces ih =>
      rw [List.cons_append, List.intercalate_cons_of_ne_nil (by simp), ← ih]
      simp

theorem isPiece_of_isBlank (htrail : ∀ c ∈ trail, isBlank c = true) :
    Nesting.IsPiece ';' trail := by
  refine Nesting.isPiece_of_inert fun c hc => ⟨Nesting.isInert_of_isBlank (htrail c hc), ?_⟩
  rintro rfl
  exact absurd (htrail ';' hc) (by decide)

/-- A line is cut at the semicolons behind its pieces, and at no other. -/
theorem splitTopLevel_pieces (h : ∀ piece ∈ pieces, Nesting.IsPiece ';' piece)
    (htrail : ∀ c ∈ trail, isBlank c = true) :
    splitTopLevel ';' ((pieces.flatMap fun piece => piece ++ [';']) ++ trail) =
      pieces ++ [trail] := by
  rw [flatMap_semicolon, Nesting.splitTopLevel_joinWith (by simp)]
  exact List.forall_mem_append.mpr
    ⟨h, List.forall_mem_singleton.mpr (isPiece_of_isBlank htrail)⟩

/-- The statements of a line are those of its pieces. -/
theorem lineStatements_pieces (h : ∀ piece ∈ pieces, Nesting.IsPiece ';' piece)
    (htrail : ∀ c ∈ trail, isBlank c = true) (place : Place) :
    lineStatements ⟨place, (pieces.flatMap fun piece => piece ++ [';']) ++ trail⟩ =
      pieces.filterMap fun piece => (readPiece piece).1 := by
  simp only [lineStatements, splitTopLevel_pieces h htrail, List.dropLast_concat]

/-- The problems of a line are those of its pieces. -/
theorem lineProblems_pieces (h : ∀ piece ∈ pieces, Nesting.IsPiece ';' piece)
    (htrail : ∀ c ∈ trail, isBlank c = true) (place : Place) :
    lineProblems ⟨place, (pieces.flatMap fun piece => piece ++ [';']) ++ trail⟩ =
      pieces.flatMap fun piece => (readPiece piece).2 := by
  have hrest : restProblems trail = [] := by
    rw [restProblems, (Text.trim_eq_nil_iff trail).mpr (List.all_eq_true.mpr htrail)]
  simp only [lineProblems, splitTopLevel_pieces h htrail, List.dropLast_concat,
    List.getLast?_concat, Option.getD_some, hrest, List.append_nil]

end Pieces

/-- What the lines of a body say is what the texts of statements say, one behind the other. -/
structure Holds (texts : List (List Char)) (body : List Line) : Prop where
  statements : Code.statements body = texts.filterMap fun text => (readPiece text).1
  problems : (diagnostics body).map Diagnostic.problem =
    texts.flatMap fun text => (readPiece text).2

section Holds

variable {texts more : List (List Char)} {body rest : List Line}

theorem holds_nil : Holds [] [] := ⟨rfl, rfl⟩

theorem Holds.append (h : Holds texts body) (h' : Holds more rest) :
    Holds (texts ++ more) (body ++ rest) := by
  have hstatements := h.statements
  have hproblems := h.problems
  constructor
  · rw [List.filterMap_append, ← hstatements, ← h'.statements]
    exact List.flatMap_append
  · rw [List.flatMap_append, ← hproblems, ← h'.problems, ← List.map_append]
    exact congrArg (List.map Diagnostic.problem) List.flatMap_append

/-- Several pieces on one line. -/
theorem holds_of_pieces {trail : List Char} (h : ∀ text ∈ texts, Nesting.IsPiece ';' text)
    (htrail : ∀ c ∈ trail, isBlank c = true) (place : Place) :
    Holds texts [⟨place, (texts.flatMap fun text => text ++ [';']) ++ trail⟩] := by
  constructor
  · rw [Code.statements, List.flatMap_singleton, lineStatements_pieces h htrail]
  · rw [diagnostics, List.flatMap_singleton, lineProblems_pieces h htrail, List.map_map]
    exact List.map_id _

/-- One piece to a line, wherever the lines stand. -/
theorem holds_of_ended (h : ∀ text ∈ texts, Nesting.IsPiece ';' text)
    (hbody : body.map Line.text = texts.map fun text => text ++ [';']) : Holds texts body := by
  induction texts generalizing body with
  | nil =>
      rw [List.map_nil, List.map_eq_nil_iff] at hbody
      rw [hbody]
      exact holds_nil
  | cons text texts ih =>
      obtain ⟨htext, hrest⟩ := List.forall_mem_cons.mp h
      obtain ⟨⟨place, line⟩, body, rfl, rfl, hbelow⟩ := List.map_eq_cons_iff.mp hbody
      have hpiece : ∀ piece ∈ [text], Nesting.IsPiece ';' piece :=
        List.forall_mem_singleton.mpr htext
      have hline := holds_of_pieces hpiece (List.forall_mem_nil fun c => isBlank c = true) place
      rw [List.flatMap_singleton, List.append_nil] at hline
      exact hline.append (ih hrest hbelow)

end Holds

/-- Written statements, one to a line, wherever the lines stand. -/
theorem statements_written {statements : List Statement}
    (h : ∀ s ∈ statements, s.WellFormed ∧ s.Bounded) {lines : List Line}
    (hlines : lines.map Line.text = statements.map fun s => s.write ++ [';']) :
    Code.statements lines = statements ∧
      (diagnostics lines).map Diagnostic.problem = statements.flatMap statementProblems := by
  have hpieces : ∀ text ∈ statements.map Statement.write, Nesting.IsPiece ';' text :=
    List.forall_mem_map.mpr fun s hs => Statement.write_isPiece (h s hs).1 (h s hs).2
  have hread : ∀ s ∈ statements, readPiece s.write = (some s, statementProblems s) :=
    fun s hs => readPiece_write (h s hs).1
  obtain ⟨hstatements, hproblems⟩ := holds_of_ended hpieces (by rw [hlines, List.map_map]; rfl)
  rw [hstatements, hproblems, List.filterMap_map, List.flatMap_map]
  constructor
  · refine (List.filterMap_congr fun s hs => ?_).trans List.filterMap_some
    rw [Function.comp_apply, hread s hs]
  · exact List.flatMap_congr fun s hs => by rw [hread s hs]

end Code

end Parley
