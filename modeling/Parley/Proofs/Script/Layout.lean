import Parley.Proofs.Script.Insertion
import Parley.Proofs.Script.Items

/-!
# Layouts of a code block

A block of code may stand on one line, or on many with the first statements behind the opening
brace or below it. Wherever it is put into a dialogue, it adds one and the same exit, and the same
is reported in the same order.

## Implementation notes

A line of code is cut by a scan of its own, so it matters that every statement leaves the scan where
it found it: only then is a line of several statements cut like several lines of one.
-/

namespace Parley

open Text (trim trimStart isBlank joinWith splitOn Trimmed)
open Script (Plain Solid IsCondition)
open Item (guardText)

namespace Code

/-! ### Blocks as they are laid out -/

/-- The text of a statement that may stand anywhere in a block, whether or not it can be read. -/
@[mk_iff]
structure Entry (text : List Char) : Prop where
  solid : Solid text
  plain : Plain text
  uncommented : ¬ ['/', '/'] <+: text
  piece : Nesting.IsPiece ';' text

instance (text : List Char) : Decidable (Entry text) :=
  decidable_of_iff' _ (entry_iff text)

/-- Statements one behind the other on a line. -/
def inline (texts : List (List Char)) : List Char :=
  texts.flatMap fun text => ' ' :: (text ++ [';'])

/-- The lines of a block, given its condition and the texts of its statements. The last line of a
block on many lines is a closing brace, and its statements below the first line may be indented. -/
inductive Layout (condition : Option (List Char)) : (texts lines : List (List Char)) → Prop where
  | oneLine (texts : List (List Char)) :
      Layout condition texts
        [guardText condition ++ '=' :: '>' :: '\x7b' :: (inline texts ++ [' ', '\x7d'])]
  | manyLines (opening below : List (List Char)) (indent : Nat) :
      Layout condition (opening ++ below)
        ((guardText condition ++ '=' :: '>' :: '\x7b' :: inline opening) ::
          below.map (fun text => List.replicate indent ' ' ++ (text ++ [';'])) ++ [['\x7d']])

/-! ### Lines of a body -/

variable {texts : List (List Char)} {text trail : List Char}

theorem readPiece_space_cons (text : List Char) : readPiece (' ' :: text) = readPiece text := by
  rw [readPiece, readPiece, Text.trim_space_cons]

/-- Statements on one line are pieces that end in semicolons, but for the blank in front. -/
theorem trimStart_inline_cons (h : Entry text) (trail : List Char) :
    trimStart (inline (text :: texts) ++ trail) =
      ((text :: texts.map (' ' :: ·)).flatMap fun piece => piece ++ [';']) ++ trail := by
  obtain ⟨c, cs, rfl⟩ := List.exists_cons_of_ne_nil h.solid.ne_nil
  have hc : isBlank c = false := h.solid.trimmed.1 c rfl
  simp [inline, Text.trimStart_cons, hc, show isBlank ' ' = true from rfl, List.flatMap_map]

/-- Statements on one line. -/
theorem holds_inline (h : ∀ text ∈ texts, Entry text) (htrail : ∀ c ∈ trail, isBlank c = true)
    (place : Place) : Holds texts [⟨place, trimStart (inline texts ++ trail)⟩] := by
  cases texts with
  | nil =>
      rw [inline, List.flatMap_nil, List.nil_append,
        (Text.trimStart_eq_nil_iff trail).mpr (List.all_eq_true.mpr htrail)]
      exact holds_of_pieces (List.forall_mem_nil _) (List.forall_mem_nil _) place
  | cons text texts =>
      obtain ⟨htext, hrest⟩ := List.forall_mem_cons.mp h
      have hblank : Nesting.IsPiece ';' [' '] := by decide
      have hpieces : ∀ piece ∈ text :: texts.map (' ' :: ·), Nesting.IsPiece ';' piece :=
        List.forall_mem_cons.mpr ⟨htext.piece, List.forall_mem_map.mpr fun t ht =>
          hblank.append (hrest t ht).piece⟩
      obtain ⟨hstatements, hproblems⟩ := holds_of_pieces hpieces htrail place
      rw [trimStart_inline_cons htext]
      constructor
      · rw [hstatements, List.filterMap_cons, List.filterMap_cons, List.filterMap_map]
        simp only [Function.comp_def, readPiece_space_cons]
      · rw [hproblems, List.flatMap_cons, List.flatMap_cons, List.flatMap_map]
        simp only [readPiece_space_cons]

/-! ### The item that a block is read to -/

theorem eq_nil_or_inline_ends (texts : List (List Char)) :
    texts = [] ∨ ∃ front, inline texts = front ++ [';'] := by
  obtain rfl | ⟨front, last, rfl⟩ := List.eq_nil_or_concat texts
  · exact .inl rfl
  · exact .inr ⟨inline front ++ ' ' :: last, by simp [inline]⟩

/-- Statements one behind the other on a line can stand on that line. -/
theorem plain_inline (h : ∀ text ∈ texts, Entry text) : Plain (inline texts) := by
  induction texts with
  | nil => exact Script.plain_nil
  | cons text texts ih =>
      obtain ⟨htext, hrest⟩ := List.forall_mem_cons.mp h
      have hcons : inline (text :: texts) = ' ' :: (text ++ ';' :: inline texts) := by
        simp [inline]
      simp [hcons, htext.plain, ih hrest]

variable {condition : Option (List Char)}

/-- A block on one line is read to its statements. -/
theorem readAs_oneLine (hcondition : ∀ c ∈ condition, IsCondition c)
    (h : ∀ text ∈ texts, Entry text) :
    ∃ body, Holds texts body ∧
      ReadAs [guardText condition ++ '=' :: '>' :: '\x7b' :: (inline texts ++ [' ', '\x7d'])]
        [.code (condition.getD []) body] := by
  have hplain : Plain ('\x7b' :: (inline texts ++ [' ', '\x7d'])) := by
    simp [plain_inline h]
  have htrim : Trimmed ('\x7b' :: (inline texts ++ [' ', '\x7d'])) := by
    have hlast : Trimmed ['\x7d'] := by decide
    have hframed := Trimmed.framed (c := '\x7b') (by decide) (inline texts ++ [' '])
      (List.cons_ne_nil _ _) hlast
    simpa using hframed
  obtain ⟨habsent, hwhole⟩ := Item.guarded hcondition (List.cons_ne_nil _ _) htrim hplain
  have hrest : trim (inline texts ++ [' ', '\x7d']) =
      trimStart (inline texts ++ [' ']) ++ ['\x7d'] := by
    have hbrace := Text.trim_append_cons (c := '\x7d') (by decide) (inline texts ++ [' ']) []
    simpa [Text.trimEnd] using hbrace
  have hblank : ∀ c ∈ [' '], isBlank c = true := List.forall_mem_singleton.mpr rfl
  refine ⟨_, holds_inline h hblank Place.nowhere, .line habsent ?_⟩
  rw [hwhole, Item.formOf_guarded hcondition, Item.codeForm, hrest]
  simp only [Text.dropLast?_append]

/-- The opening line of a block on many lines. -/
theorem formOf_opening (hcondition : ∀ c ∈ condition, IsCondition c)
    (h : ∀ text ∈ texts, Entry text) :
    ∃ first, Holds texts first ∧
      Comment.Absent (guardText condition ++ '=' :: '>' :: '\x7b' :: inline texts) ∧
      Item.formOf Place.nowhere
          (trim (guardText condition ++ '=' :: '>' :: '\x7b' :: inline texts)) =
        .opensCode (condition.getD []) first := by
  have hplain : Plain ('\x7b' :: inline texts) := by
    simp [plain_inline h]
  obtain rfl | ⟨front, hfront⟩ := eq_nil_or_inline_ends texts
  · obtain ⟨habsent, hwhole⟩ :=
      Item.guarded hcondition (List.cons_ne_nil '\x7b' []) (by decide) hplain
    refine ⟨[], holds_nil, habsent, ?_⟩
    rw [inline, List.flatMap_nil, hwhole, Item.formOf_guarded hcondition]
    rfl
  · have htrim : Trimmed ('\x7b' :: inline texts) := by
      rw [hfront]
      exact Trimmed.framed (by decide) _ (by decide) (by decide)
    obtain ⟨habsent, hwhole⟩ := Item.guarded hcondition (List.cons_ne_nil _ _) htrim hplain
    have hstart : trimStart (inline texts) = trimStart front ++ [';'] := by
      rw [hfront, Text.trimStart_append_cons (by decide)]
    have hrest : trim (inline texts) = trimStart front ++ [';'] := by
      rw [hfront, Text.trim_append_cons (by decide)]
      rfl
    have hopen : Text.dropLast? '\x7d' (trimStart front ++ [';']) = none := by
      simp [Text.dropLast?]
    have hblank : ∀ c ∈ [], isBlank c = true := List.forall_mem_nil _
    have hfirst := holds_inline h hblank Place.nowhere
    rw [List.append_nil, hstart] at hfirst
    refine ⟨_, hfirst, habsent, ?_⟩
    rw [hwhole, Item.formOf_guarded hcondition, Item.codeForm, hrest]
    simp [hopen]

theorem trim_indented (indent : Nat) (cs : List Char) :
    trim (List.replicate indent ' ' ++ cs) = trim cs := by
  have hspaced : Text.Spaced cs (List.replicate indent ' ' ++ cs) :=
    Text.Spaced.refl.blanks_append fun c hc => by rw [List.eq_of_mem_replicate hc]; rfl
  exact hspaced.trim_eq

theorem plain_indented (indent : Nat) {cs : List Char} (h : Plain cs) :
    Plain (List.replicate indent ' ' ++ cs) := by
  induction indent with
  | zero => exact h
  | succ indent ih => simpa [List.replicate_succ] using ih

theorem Entry.trim_line (h : Entry text) (indent : Nat) :
    trim (List.replicate indent ' ' ++ (text ++ [';'])) = text ++ [';'] := by
  obtain ⟨c, cs, rfl⟩ := List.exists_cons_of_ne_nil h.solid.ne_nil
  rw [trim_indented]
  exact Text.trim_eq_self <|
    Trimmed.framed (h.solid.trimmed.1 c rfl) cs (by decide) (by decide)

theorem Entry.absent_line (h : Entry text) (indent : Nat) :
    Comment.Absent (List.replicate indent ' ' ++ (text ++ [';'])) := by
  refine ⟨plain_indented indent (by simp [h.plain]), ?_⟩
  rw [h.trim_line]
  intro hslashes
  -- Both slashes are in front of the semicolon.
  have hne := h.solid.ne_nil
  have huncommented := h.uncommented
  match text with
  | [] => exact hne rfl
  | [c] => simp [List.cons_prefix_cons] at hslashes
  | c :: d :: cs =>
      simp only [List.cons_append, List.cons_prefix_cons, List.nil_prefix, and_true]
        at hslashes huncommented
      exact huncommented hslashes

/-- A block on many lines is read to its statements, wherever the first line breaks off. -/
theorem readAs_manyLines {opening below : List (List Char)}
    (hcondition : ∀ c ∈ condition, IsCondition c) (h : ∀ text ∈ opening ++ below, Entry text)
    (indent : Nat) :
    ∃ body, Holds (opening ++ below) body ∧
      ReadAs ((guardText condition ++ '=' :: '>' :: '\x7b' :: inline opening) ::
          below.map (fun text => List.replicate indent ' ' ++ (text ++ [';'])) ++ [['\x7d']])
        [.code (condition.getD []) body] := by
  obtain ⟨hopening, hbelow⟩ := List.forall_mem_append.mp h
  obtain ⟨first, hfirst, habsent, hform⟩ := formOf_opening hcondition hopening
  have hcode := ReadAs.code habsent hform <| List.forall_mem_map.mpr fun text htext =>
    ⟨(hbelow text htext).absent_line indent, by
      rw [(hbelow text htext).trim_line]
      exact Item.ended_ne_close text⟩
  have hlines : (below.map fun text => List.replicate indent ' ' ++ (text ++ [';'])).map
      (fun line => Line.bare (trim line)) =
        below.map fun text => ⟨Place.nowhere, text ++ [';']⟩ := by
    rw [List.map_map]
    exact List.map_congr_left fun text htext => by
      rw [Function.comp_apply, (hbelow text htext).trim_line, Line.bare]
  have hheld : Holds below (below.map fun text => ⟨Place.nowhere, text ++ [';']⟩) :=
    holds_of_ended (fun text htext => (hbelow text htext).piece) (by rw [List.map_map]; rfl)
  rw [hlines] at hcode
  exact ⟨_, hfirst.append hheld, hcode⟩

/-- In every layout, a block is read to its statements. -/
theorem Layout.readAs {lines : List (List Char)} (h : Layout condition texts lines)
    (hcondition : ∀ c ∈ condition, IsCondition c) (htexts : ∀ text ∈ texts, Entry text) :
    ∃ body, Holds texts body ∧ ReadAs lines [.code (condition.getD []) body] := by
  cases h with
  | oneLine => exact readAs_oneLine hcondition htexts
  | manyLines opening below indent => exact readAs_manyLines hcondition htexts indent

/-! ### Layouts in a dialogue -/

/-- The lines of a block as a text. -/
def block (lines : List (List Char)) : String :=
  String.ofList (joinWith ['\n'] lines)

theorem splitOn_block {lines : List (List Char)} {items : List Item} (h : ReadAs lines items)
    (hne : lines ≠ []) : splitOn '\n' (block lines).toList = lines := by
  rw [block, String.toList_ofList]
  exact Text.splitOn_joinWith hne fun line hline => (h.absent line hline).plain.1

theorem Layout.ne_nil {lines : List (List Char)} (h : Layout condition texts lines) :
    lines ≠ [] := by
  cases h <;> simp

/-- The exit that a block is read to, however it is laid out. -/
def exitOf (condition : Option (List Char)) (texts : List (List Char)) : Exit :=
  ⟨String.ofList (condition.getD []),
    .code (texts.filterMap fun text => (readPiece text).1)⟩

/-- What is reported of a block, however it is laid out. -/
def problemsOf (condition : Option (List Char)) (texts : List (List Char)) : List Problem :=
  Section.conditionProblems (condition.getD []) ++ texts.flatMap fun text => (readPiece text).2

/-- A condition that can stand between braces or none, texts of statements that leave nothing open,
and a place inside a dialogue of a source. The block may be put in there in any layout: one and the
same exit is added to that dialogue, behind the exits above and in front of those below, the same
problems are reported in the same order, between the reports above and those below, and nothing else
changes but the places of what stands below. A source that is refused is refused with the block in
it. -/
theorem layout_immaterial {reg : Registry} {source : String} {count : Nat}
    (hplace : Script.InDialogue count source) (hcondition : ∀ c ∈ condition, IsCondition c)
    (htexts : ∀ text ∈ texts, Entry text) :
    (∀ script, Script.parse reg source = .ok script → ∃ g : Script.Gap,
      g.Behind reg count source ∧ g.closed = script ∧
      ∀ lines, Layout condition texts lines →
        ∃ reports, reports.map Diagnostic.problem = problemsOf condition texts ∧
          Script.parse reg (Script.insertLines count (block lines) source) = .ok
            (g.filled (Place.behind count (block lines).toList) (exitOf condition texts)
              reports)) ∧
    ∀ error, Script.parse reg source = .error error →
      ∀ lines, Layout condition texts lines →
        Script.parse reg (Script.insertLines count (block lines) source) =
          .error (error.move (Place.lineBehind count (block lines).toList)) := by
  have hread : ∀ lines, Layout condition texts lines → ∃ body, Holds texts body ∧
      ReadAs (splitOn '\n' (block lines).toList) [.code (condition.getD []) body] := by
    intro lines hlayout
    obtain ⟨body, hbody, hlines⟩ := hlayout.readAs hcondition htexts
    exact ⟨body, hbody, by rwa [splitOn_block hlines hlayout.ne_nil]⟩
  constructor
  · intro script hparse
    obtain ⟨g, hbehind, hclosed, hinsert⟩ := Script.parse_insertCode hplace hparse
    refine ⟨g, hbehind, hclosed, fun lines hlayout => ?_⟩
    obtain ⟨body, hbody, hlines⟩ := hread lines hlayout
    obtain ⟨reports, hreports, hfilled⟩ := hinsert _ _ _ hlines
    rw [hbody.problems] at hreports
    rw [Section.codeExit, hbody.statements] at hfilled
    exact ⟨reports, hreports, hfilled⟩
  · intro error hparse lines hlayout
    obtain ⟨body, -, hlines⟩ := hread lines hlayout
    exact Script.parse_insertCode_error hplace hparse hlines

/-! A block between two lines of an element, one of its statements without a meaning and one without
an expression that can be parsed. The two sources differ in whether a key comes again below. -/

def gapSource : String :=
  "# a\n[Ann]: One\nTwo\n=> b\n# b\n[Eve]: Three"

def clashSource : String :=
  "# a\n[Ann]: One\nTwo\n=> b\n# a\n[Eve]: Three"

/-- A separator in quotes, a statement without a meaning, and an expression that breaks off. -/
def gapTexts : List (List Char) :=
  ["x = ';'".toList, "lost".toList, "y = 1 +".toList]

def gapLayouts : List (List (List Char)) :=
  [["\x7bready\x7d=>\x7b x = ';'; lost; y = 1 +; \x7d"],
    ["\x7bready\x7d=>\x7b", "    x = ';';", "    lost;", "    y = 1 +;", "\x7d"],
    ["\x7bready\x7d=>\x7b x = ';'; lost;", "y = 1 +;", "\x7d"]].map
    fun lines => lines.map String.toList

/-- One line, a line for each statement, and two statements behind the brace. -/
theorem layout_of_mem_gapLayouts :
    ∀ lines ∈ gapLayouts, Layout (some "ready".toList) gapTexts lines := by
  have hlayouts : gapLayouts =
      [[guardText (some "ready".toList) ++ '=' :: '>' :: '\x7b' ::
          (inline gapTexts ++ [' ', '\x7d'])],
        (guardText (some "ready".toList) ++ '=' :: '>' :: '\x7b' :: inline []) ::
          gapTexts.map (fun text => List.replicate 4 ' ' ++ (text ++ [';'])) ++ [['\x7d']],
        (guardText (some "ready".toList) ++ '=' :: '>' :: '\x7b' :: inline (gapTexts.take 2)) ::
          (gapTexts.drop 2).map (fun text => List.replicate 0 ' ' ++ (text ++ [';'])) ++
          [['\x7d']]] := by decide +kernel
  rw [hlayouts, List.forall_mem_cons, List.forall_mem_cons, List.forall_mem_singleton]
  exact ⟨.oneLine gapTexts, .manyLines [] gapTexts 4,
    .manyLines (gapTexts.take 2) (gapTexts.drop 2) 0⟩

theorem layout_immaterial_sample :
    Script.InDialogue 2 gapSource ∧ Script.InDialogue 2 clashSource ∧
      (∀ text ∈ gapTexts, Entry text) ∧
      (∃ script, Script.parse Registry.implicitly gapSource = .ok script ∧
        ∃ g : Script.Gap, g.Behind Registry.implicitly 2 gapSource ∧ g.closed = script ∧
          ∀ lines ∈ gapLayouts, ∃ reports,
            reports.map Diagnostic.problem = problemsOf (some "ready".toList) gapTexts ∧
            Script.parse Registry.implicitly (Script.insertLines 2 (block lines) gapSource) = .ok
              (g.filled (Place.behind 2 (block lines).toList)
                (exitOf (some "ready".toList) gapTexts) reports)) ∧
      (exitOf (some "ready".toList) gapTexts).target =
        .code [.assign "x" "';'", .assign "y" "1 +"] ∧
      (problemsOf (some "ready".toList) gapTexts).map Problem.severity = [.error, .warning] ∧
      ∀ lines ∈ gapLayouts, Script.parse Registry.implicitly
          (Script.insertLines 2 (block lines) clashSource) =
        .error (.duplicateKey "a" (Place.lineBehind 2 (block lines).toList 5)) := by
  have hgap : Script.InDialogue 2 gapSource :=
    ⟨by decide +kernel, by decide +kernel, by decide +kernel⟩
  have hclash : Script.InDialogue 2 clashSource :=
    ⟨by decide +kernel, by decide +kernel, by decide +kernel⟩
  have hcondition : ∀ c ∈ some "ready".toList, IsCondition c := by decide +kernel
  have htexts : ∀ text ∈ gapTexts, Entry text := by decide +kernel
  have hparse : Script.parse Registry.implicitly gapSource =
      .ok (Script.reading Registry.implicitly gapSource) := rfl
  have hrefused : Script.parse Registry.implicitly clashSource =
      .error (.duplicateKey "a" 5) := rfl
  obtain ⟨g, hbehind, hclosed, hfilled⟩ :=
    (layout_immaterial hgap hcondition htexts).1 _ hparse
  have herror := (layout_immaterial hclash hcondition htexts).2 _ hrefused
  exact ⟨hgap, hclash, htexts,
    ⟨_, hparse, g, hbehind, hclosed,
      fun lines h => hfilled lines (layout_of_mem_gapLayouts lines h)⟩,
    by decide +kernel, by decide +kernel,
    fun lines h => herror lines (layout_of_mem_gapLayouts lines h)⟩

end Code

end Parley
