import Parley.Proofs.Script.Checked
import Parley.Proofs.Script.Enclosed
import Parley.Proofs.Script.Statement

/-!
# Lines of code as they are typed

A line of code holds statements with a semicolon behind each. Where the expressions in them can be
parsed, the line is read to these statements and nothing is reported, however much stands between
quotes and parentheses, and wherever there are blanks.

## Implementation notes

The texts here are not written forms: an expression is any text that can be parsed, and blanks may
stand at both ends of it and of a name. Reading keeps the expression without the blanks.
-/

namespace Parley

open Text (Spaced isBlank trim trimStart trimEnd joinWith breakOn?)

/-! ### Expressions -/

namespace Expression

/-- An expression as it stands in a line of code: a text that can be parsed, and the same with any
blanks at its ends. -/
structure Typed where
  source : String
  text : List Char
  parses : ∃ x, parse source = .ok x
  spaced : Spaced source.toList text

namespace Typed

variable (t : Typed)

/-- The text without the blanks at its ends. -/
def kept : String :=
  String.ofList (trim t.source.toList)

theorem trim_text : trim t.text = t.kept.toList := by
  rw [t.spaced.trim_eq, kept, String.toList_ofList]

theorem kept_parses : ∃ x, parse t.kept = .ok x := by
  obtain ⟨e, he⟩ := exists_parse_iff.mp t.parses
  exact exists_parse_iff.mpr ⟨e, Expr.parse_trim he⟩

theorem kept_ne_nil : t.kept.toList ≠ [] := by
  obtain ⟨e, he⟩ := exists_parse_iff.mp t.parses
  intro hnil
  rw [kept, String.toList_ofList, Text.trim_eq_nil_iff] at hnil
  simp [Expr.parse, hnil] at he

/-- An expression in a line of code is passed over by the scan. -/
theorem enclosed : Nesting.Enclosed t.text := by
  obtain ⟨e, he⟩ := exists_parse_iff.mp t.parses
  exact (Nesting.enclosed_of_parse he).of_spaced t.spaced

end Typed

end Expression

/-! ### Statements -/

namespace Statement

open Expression (Typed)

/-- A statement as it may be typed, without the semicolon: a name, an equals sign and an
expression, or a name and in parentheses, with commas between them, expressions that have no
equals sign. -/
inductive Spelled : Statement → List Char → Prop where
  | assign {name : String} {target : List Char} (value : Typed) :
      Lexer.isName name.toList = true → Spaced name.toList target →
      Spelled (.assign name value.kept) (target ++ '=' :: value.text)
  | call {name : String} {target trail : List Char} {args : List Typed} :
      Lexer.isName name.toList = true → Spaced name.toList target →
      (∀ arg ∈ args, '=' ∉ arg.source.toList) → (∀ c ∈ trail, isBlank c = true) →
      Spelled (.call name (args.map Typed.kept))
        (target ++ '(' :: (joinWith [','] (args.map Typed.text) ++ ')' :: trail))

variable {s : Statement} {piece : List Char} {name : String} {target trail : List Char}
  {args : List Typed}

theorem enclosed_target (hname : Lexer.isName name.toList = true)
    (htarget : Spaced name.toList target) : Nesting.Enclosed target := by
  refine Nesting.Enclosed.of_spaced (Nesting.enclosed_of_idle fun c hc => ?_) htarget
  exact Nesting.isIdle_of_isNameChar (Lexer.isNameChar_of_mem hname hc)

theorem enclosed_text_of_mem : ∀ arg ∈ args.map Typed.text, Nesting.Enclosed arg :=
  List.forall_mem_map.mpr fun arg _ => arg.enclosed

/-- A spelled statement is passed over by the scan. -/
theorem Spelled.enclosed (h : Spelled s piece) : Nesting.Enclosed piece := by
  cases h with
  | assign value hname htarget =>
      have hequals : Nesting.Enclosed ['='] := Nesting.enclosed_singleton (by decide)
      exact (enclosed_target hname htarget).append (hequals.append value.enclosed)
  | @call _ target trail args hname htarget _ htrail =>
      have harguments := Nesting.enclosed_arguments (@enclosed_text_of_mem args)
      have hblank := Nesting.enclosed_of_isBlank htrail
      simpa using (enclosed_target hname htarget).append (harguments.append hblank)

theorem notMem_trimStart_target {m : Char} (hm : Lexer.isNameChar m = false)
    (hblank : isBlank m = false) (hname : Lexer.isName name.toList = true)
    (htarget : Spaced name.toList target) : m ∉ trimStart target := by
  have hmark : m ∉ target := htarget.notMem hblank (Lexer.notMem_of_isName hname hm)
  exact fun h => hmark ((List.dropWhile_suffix _).subset h)

theorem trim_trimStart_target (hname : Lexer.isName name.toList = true)
    (htarget : Spaced name.toList target) : trim (trimStart target) = name.toList := by
  rw [Text.trim_trimStart, htarget.trim_eq, Text.trim_eq_self (Lexer.trimmed_of_isName hname)]

/-- A spelled assignment is read back, with its value trimmed. -/
theorem read_assign (value : Typed) (hname : Lexer.isName name.toList = true)
    (htarget : Spaced name.toList target) :
    read (target ++ '=' :: value.text) = .ok (.assign name value.kept) := by
  have hvalue : trim (trimEnd value.text) = value.kept.toList := by
    rw [Text.trim_trimEnd, value.trim_text]
  have hequals : '=' ∉ trimStart target :=
    notMem_trimStart_target (by decide) (by decide) hname htarget
  have hbreak := Text.breakOn?_at_first hequals [] (trimEnd value.text)
  rw [List.cons_append, List.nil_append] at hbreak
  rw [read, Text.trim_append_cons (by decide)]
  simp only [hbreak, readAssignment_eq hname (trim_trimStart_target hname htarget), hvalue,
    List.isEmpty_iff, value.kept_ne_nil, String.ofList_toList]
  rfl

theorem readArguments_typed (name : String) (args : List Typed) :
    readArguments name (joinWith [','] (args.map Typed.text)) =
      .ok (call name (args.map Typed.kept)) := by
  have hkept : (args.map Typed.text).map (fun piece => String.ofList (trim piece)) =
      args.map Typed.kept := by
    rw [List.map_map]
    refine List.map_congr_left fun arg _ => ?_
    rw [Function.comp_apply, arg.trim_text, String.ofList_toList]
  rw [readArguments_joinWith, hkept]
  · exact fun piece hp => (enclosed_text_of_mem piece hp).isPiece (by decide)
  · refine List.forall_mem_map.mpr fun arg _ => ?_
    rw [arg.trim_text]
    exact arg.kept_ne_nil

/-- A spelled call is read back, with its arguments trimmed. -/
theorem readCall_typed (hname : Lexer.isName name.toList = true)
    (htarget : Spaced name.toList target) (args : List Typed) :
    readCall (trimStart target ++ '(' :: (joinWith [','] (args.map Typed.text) ++ [')'])) =
      .ok (call name (args.map Typed.kept)) := by
  have hbalanced : balanced (joinWith [','] (args.map Typed.text)) = true :=
    Nesting.balanced_joinWith (by decide) fun piece hp => (enclosed_text_of_mem piece hp).balanced
  rw [readCall_eq hname (trim_trimStart_target hname htarget)
    (notMem_trimStart_target (by decide) (by decide) hname htarget) hbalanced]
  exact readArguments_typed name args

/-- A statement is read from the text it is typed as. -/
theorem Spelled.read_eq (h : Spelled s piece) : read piece = .ok s := by
  cases h with
  | assign value hname htarget => exact read_assign value hname htarget
  | @call name target trail args hname htarget hunequal htrail =>
      have htrim : trim (target ++ '(' :: (joinWith [','] (args.map Typed.text) ++ ')' :: trail)) =
          trimStart target ++ '(' :: (joinWith [','] (args.map Typed.text) ++ [')']) := by
        rw [Text.trim_append_cons (by decide), Text.trimEnd_append_cons (by decide),
          (Text.trimEnd_eq_nil_iff trail).mpr (List.all_eq_true.mpr htrail)]
      have hequals : breakOn? ['=']
          (trimStart target ++ '(' :: (joinWith [','] (args.map Typed.text) ++ [')'])) = none := by
        have htarget' : '=' ∉ trimStart target :=
          notMem_trimStart_target (by decide) (by decide) hname htarget
        have hargs : '=' ∉ joinWith [','] (args.map Typed.text) :=
          Text.notMem_joinWith (by decide) <| List.forall_mem_map.mpr fun arg harg =>
            arg.spaced.notMem (by decide) (hunequal arg harg)
        refine Text.breakOn?_eq_none_of_notMem ?_ []
        simp [htarget', hargs]
      rw [read, htrim, hequals]
      exact readCall_typed hname htarget args

/-- The expressions of a spelled statement can all be read. -/
theorem Spelled.checked (h : Spelled s piece) : s.Checked := by
  cases h with
  | assign value => exact ⟨List.forall_mem_singleton.mpr value.kept_parses, fun _ => ⟨_, rfl⟩⟩
  | call => exact ⟨List.forall_mem_map.mpr fun arg _ => arg.kept_parses, nofun⟩

end Statement

/-! ### Lines -/

namespace Code

open Statement (Spelled)

/-- A spelled statement is read back, and nothing is reported. -/
theorem readPiece_spelled {s : Statement} {piece : List Char} (h : Spelled s piece) :
    readPiece piece = (some s, []) := by
  have hread : Statement.read (trim piece) = .ok s := by
    rw [← h.read_eq, Statement.read, Statement.read, Text.trim_trim]
  have hne : trim piece ≠ [] := by
    cases h with
    | assign => simp [Text.trim_append_cons (by decide : isBlank '=' = false)]
    | call => simp [Text.trim_append_cons (by decide : isBlank '(' = false)]
  obtain ⟨c, cs, hcons⟩ := List.exists_cons_of_ne_nil hne
  rw [hcons] at hread
  simp only [readPiece, hcons, hread, statementProblems_of_checked h.checked]

variable {statements : List Statement} {pieces : List (List Char)} {trail : List Char}

/-- A line is cut at the semicolons behind its statements, and at no other. -/
theorem splitTopLevel_spelled (h : List.Forall₂ Spelled statements pieces)
    (htrail : ∀ c ∈ trail, isBlank c = true) :
    splitTopLevel ';' ((pieces.flatMap fun piece => piece ++ [';']) ++ trail) =
      pieces ++ [trail] := by
  refine splitTopLevel_pieces ?_ htrail
  induction h with
  | nil => exact List.forall_mem_nil _
  | cons hfirst _ ih =>
      exact List.forall_mem_cons.mpr ⟨hfirst.enclosed.isPiece (by decide), ih⟩

theorem readPieces_spelled (h : List.Forall₂ Spelled statements pieces) :
    pieces.filterMap (fun piece => (readPiece piece).1) = statements ∧
      pieces.flatMap (fun piece => (readPiece piece).2) = [] := by
  induction h with
  | nil => exact ⟨rfl, rfl⟩
  | cons hfirst _ ih => simp [readPiece_spelled hfirst, ih.1, ih.2]

/-- A line of statements as they may be typed, each with a semicolon behind it: it is read to these
statements in their order, and nothing is reported. -/
theorem reads_spelled_line (h : List.Forall₂ Spelled statements pieces)
    (htrail : ∀ c ∈ trail, isBlank c = true) (place : Place) :
    Code.statements [⟨place, (pieces.flatMap fun piece => piece ++ [';']) ++ trail⟩] = statements ∧
      Code.diagnostics [⟨place, (pieces.flatMap fun piece => piece ++ [';']) ++ trail⟩] = [] := by
  have hsplit := splitTopLevel_spelled h htrail
  obtain ⟨hstatements, hproblems⟩ := readPieces_spelled h
  have hrest : restProblems trail = [] := by
    rw [restProblems, (Text.trim_eq_nil_iff trail).mpr (List.all_eq_true.mpr htrail)]
  constructor
  · simp [Code.statements, lineStatements, hsplit, hstatements]
  · simp [Code.diagnostics, lineProblems, hsplit, hproblems, hrest]

/-! Separators and parentheses inside quotes, and commas inside parentheses. -/

theorem parses_of_isOk {source : String} (h : (Expr.parse source).isOk = true) :
    ∃ x, Expression.parse source = .ok x := by
  rw [Expression.exists_parse_iff]
  cases hparse : Expr.parse source with
  | ok e => exact ⟨e, rfl⟩
  | error cause => simp [hparse, Except.isOk, Except.toBool] at h

def guarded : Expression.Typed where
  source := "(a == \"x;)\")"
  text := " (a == \"x;)\") ".toList
  parses := parses_of_isOk (by decide +kernel)
  spaced := .front (by decide) (.back (by decide) .refl)

def quoted : Expression.Typed where
  source := " ',;('"
  text := " ',;('".toList
  parses := parses_of_isOk (by decide +kernel)
  spaced := .refl

def nested : Expression.Typed where
  source := "not (a and (b or c))"
  text := " not (a and (b or c))".toList
  parses := parses_of_isOk (by decide +kernel)
  spaced := .front (by decide) .refl

def guardedLine : String :=
  "door.open = (a == \"x;)\") ;say( ',;(', not (a and (b or c)));wait();"

def guardedPieces : List (List Char) :=
  ["door.open".toList ++ [' '] ++ '=' :: guarded.text,
    "say".toList ++ '(' :: (joinWith [','] ([quoted, nested].map Expression.Typed.text) ++ [')']),
    "wait".toList ++ '(' :: (joinWith [','] [] ++ [')'])]

def guardedStatements : List Statement :=
  [.assign "door.open" "(a == \"x;)\")", .call "say" ["',;('", "not (a and (b or c))"],
    .call "wait" []]

theorem guardedPieces_spelled : List.Forall₂ Spelled guardedStatements guardedPieces := by
  have hguarded : guarded.kept = "(a == \"x;)\")" := by decide +kernel
  have hquoted : quoted.kept = "',;('" := by decide +kernel
  have hnested : nested.kept = "not (a and (b or c))" := by decide +kernel
  rw [guardedStatements, ← hguarded, ← hquoted, ← hnested]
  refine .cons ?_ (.cons ?_ (.cons ?_ .nil))
  · exact .assign guarded (by decide +kernel) (.back (by decide) .refl)
  · exact @Spelled.call "say" _ [] [quoted, nested] (by decide +kernel) .refl (by decide +kernel)
      (List.forall_mem_nil _)
  · exact @Spelled.call "wait" _ [] [] (by decide +kernel) .refl (List.forall_mem_nil _)
      (List.forall_mem_nil _)

theorem reads_guardedLine :
    List.Forall₂ Spelled guardedStatements guardedPieces ∧
      (guardedPieces.flatMap fun piece => piece ++ [';']) ++ [] = guardedLine.toList ∧
      Code.statements [⟨⟨1, ⟨0, 67⟩⟩, guardedLine.toList⟩] = guardedStatements ∧
      Code.diagnostics [⟨⟨1, ⟨0, 67⟩⟩, guardedLine.toList⟩] = [] := by
  have hline : (guardedPieces.flatMap fun piece => piece ++ [';']) ++ [] =
      guardedLine.toList := by decide +kernel
  have hread := reads_spelled_line guardedPieces_spelled (List.forall_mem_nil _) ⟨1, ⟨0, 67⟩⟩
  rw [hline] at hread
  exact ⟨guardedPieces_spelled, hline, hread⟩

end Code

end Parley
