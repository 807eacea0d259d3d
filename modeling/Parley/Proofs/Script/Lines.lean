import Parley.Proofs.Script.Writable
import Parley.Script.Writer

/-!
# The lines of a written graph

A written graph is a list of lines, each with a line feed behind it. Cutting the text at its line
feeds gives the lines back as long as none of them holds a line feed itself.
-/

namespace Parley

open Text (trim allBlank splitOn joinWith)

/-! ### Lines and texts -/

namespace Text

/-- Every line with its line feed. -/
def unlines (lines : List (List Char)) : List Char :=
  lines.flatMap fun line => line ++ ['\n']

@[simp]
theorem unlines_nil : unlines [] = [] := rfl

@[simp]
theorem unlines_cons (line : List Char) (lines : List (List Char)) :
    unlines (line :: lines) = line ++ '\n' :: unlines lines := by
  simp [unlines]

@[simp]
theorem unlines_append (ks ls : List (List Char)) :
    unlines (ks ++ ls) = unlines ks ++ unlines ls := by
  simp [unlines]

theorem unlines_flatMap {α : Type} (lines : α → List (List Char)) (as : List α) :
    unlines (as.flatMap lines) = as.flatMap fun a => unlines (lines a) := by
  simp [unlines, List.flatMap_assoc]

theorem unlines_map {α : Type} (line : α → List Char) (as : List α) :
    unlines (as.map line) = as.flatMap fun a => line a ++ ['\n'] := by
  simp [unlines, List.flatMap_map]

theorem unlines_eq_joinWith (lines : List (List Char)) :
    unlines lines = joinWith ['\n'] (lines ++ [[]]) := by
  unfold joinWith
  induction lines with
  | nil => rfl
  | cons line lines ih =>
      rw [unlines_cons, List.cons_append, List.intercalate_cons_of_ne_nil (by simp), ih]
      simp

theorem splitOn_unlines {lines : List (List Char)} (h : ∀ line ∈ lines, '\n' ∉ line) :
    splitOn '\n' (unlines lines) = lines ++ [[]] := by
  rw [unlines_eq_joinWith, splitOn_joinWith (by simp)]
  intro line hline
  rcases List.mem_append.mp hline with hmem | hlast
  · exact h line hmem
  · simp_all

theorem cons_flatMap_concat {α β : Type} (f : α → List β) (b : β) (as : List α) :
    b :: as.flatMap (fun a => f a ++ [b]) = as.flatMap (fun a => b :: f a) ++ [b] := by
  induction as with
  | nil => rfl
  | cons a as ih =>
      rw [List.flatMap_cons, List.flatMap_cons, List.append_assoc, List.append_assoc,
        List.singleton_append, ih]
      rfl

/-- Blocks with a line feed between them are blocks with an empty line between them. -/
theorem joinWith_unlines (block : List (List Char)) (blocks : List (List (List Char))) :
    joinWith ['\n'] ((block :: blocks).map unlines) =
      unlines (block ++ blocks.flatMap fun b => [] :: b) := by
  unfold joinWith
  induction blocks generalizing block with
  | nil => simp
  | cons next blocks ih =>
      rw [List.map_cons, List.map_cons, List.intercalate_cons_cons, ← List.map_cons, ih]
      simp

end Text

open Text (unlines)

/-! ### Lines of the parts -/

/-- The line of a choice. -/
def Choice.line (c : Choice) : List Char :=
  '*' :: ' ' :: (c.text.toList ++ ' ' :: '-' :: '>' :: ' ' :: c.key.toList)

theorem Choice.write_eq (c : Choice) : c.write = c.line ++ ['\n'] := by
  simp [Choice.write, line]

namespace Element

/-- The first line of the text behind its tag. -/
def openingLine (speaking : Bool) (e : Element) : List Char :=
  e.tag speaking e.firstLine ++ e.firstLine

/-- The lines of an element: its first line, the others, its choices, and an empty one. -/
def writtenLines (speaking : Bool) (e : Element) : List (List Char) :=
  e.openingLine speaking :: e.restLines ++ e.choices.map Choice.line ++ [[]]

theorem write_eq (speaking : Bool) (e : Element) :
    e.write speaking = unlines (e.writtenLines speaking) := by
  have hlines : splitOn '\n' e.text.toList = e.firstLine :: e.restLines := e.textLines_eq
  have hchoices : e.choices.flatMap Choice.write = unlines (e.choices.map Choice.line) := by
    rw [Text.unlines_map]
    exact List.flatMap_congr fun c _ => c.write_eq
  simp only [write, hlines, hchoices, writtenLines, openingLine]
  simp [unlines]

end Element

/-- Four blanks, the statement and its semicolon. -/
def Statement.line (s : Statement) : List Char :=
  ' ' :: ' ' :: ' ' :: ' ' :: (s.write ++ [';'])

/-- A guard as it stands in front of an arrow: the condition in its braces, or nothing. -/
def Item.guardText : Option (List Char) → List Char
  | none => []
  | some condition => '\x7b' :: (condition ++ ['\x7d'])

namespace Exit

/-- The condition that is written out in front of the arrow, none where it is blank. -/
def guard? (e : Exit) : Option (List Char) :=
  if (trim e.condition.toList).isEmpty then none else some (trim e.condition.toList)

/-- The line of a redirect, or those of a block with a statement on each. -/
def writtenLines (e : Exit) : List (List Char) :=
  match e.target with
  | .key key => [Item.guardText e.guard? ++ '=' :: '>' :: key.toList]
  | .code statements =>
      (Item.guardText e.guard? ++ ['=', '>', '\x7b']) ::
        statements.map Statement.line ++ [['\x7d']]

theorem guardText_guard? (e : Exit) :
    Item.guardText e.guard? =
      if (trim e.condition.toList).isEmpty then []
      else '\x7b' :: trim e.condition.toList ++ ['\x7d'] := by
  unfold guard?
  split
  · rfl
  · rfl

/-- The writer puts out the lines of the exit. -/
theorem write_eq (e : Exit) : Dialogue.writeExit e = unlines e.writtenLines := by
  obtain ⟨condition, target⟩ := e
  cases target with
  | key key => simp [Dialogue.writeExit, Dialogue.writeTarget, writtenLines, guardText_guard?]
  | code statements =>
      simp [Dialogue.writeExit, Dialogue.writeTarget, writtenLines, guardText_guard?,
        Text.unlines_map, Statement.line]

end Exit

/-! ### Lines of a dialogue -/

namespace Dialogue

/-- The name behind its mark. -/
def headerLine (d : Dialogue) : List Char :=
  '#' :: ' ' :: d.name.toList

/-- The line of flags, none where there are no flags. -/
def flagLines (f : Flags) : List (List Char) :=
  if f.names.isEmpty then []
  else ['\x7b' :: joinWith [','] (f.names.map String.toList) ++ ['\x7d']]

theorem writeFlags_eq (f : Flags) : writeFlags f = unlines (flagLines f) := by
  unfold writeFlags flagLines
  split
  · rfl
  · simp

/-- The lines of elements, where each is told who spoke before it. -/
def elementLines : (speaking : Bool) → List Element → List (List Char)
  | _, [] => []
  | speaking, e :: es => e.writtenLines speaking ++ elementLines e.speaker.isSome es

theorem writeElements_eq (speaking : Bool) (es : List Element) :
    writeElements speaking es = unlines (elementLines speaking es) := by
  induction es generalizing speaking with
  | nil => rfl
  | cons e es ih => rw [writeElements, elementLines, Text.unlines_append, e.write_eq, ih]

/-- The lines of a dialogue, without the empty one behind it. -/
def writtenLines (d : Dialogue) : List (List Char) :=
  d.headerLine :: flagLines d.flags ++ elementLines false d.elements ++
    d.exits.flatMap Exit.writtenLines

/-- The writer puts out the lines of the dialogue. -/
theorem write_eq (d : Dialogue) : d.write = unlines d.writtenLines := by
  have hexits : d.exits.flatMap writeExit = unlines (d.exits.flatMap Exit.writtenLines) := by
    rw [Text.unlines_flatMap]
    exact List.flatMap_congr fun e _ => e.write_eq
  simp [write, writtenLines, headerLine, writeFlags_eq, writeElements_eq, hexits]

end Dialogue

/-! ### Lines of a graph -/

namespace Script

/-- The lines a reader finds: an empty one stands behind every dialogue, also behind the last,
whose line feed ends the text. -/
def writtenLines : List Dialogue → List (List Char)
  | [] => [[]]
  | ds => ds.flatMap fun d => d.writtenLines ++ [[]]

/-- The lines a reader finds in the written text are those that were written. -/
theorem splitOn_write {ds : List Dialogue}
    (h : ∀ d ∈ ds, ∀ line ∈ d.writtenLines, '\n' ∉ line) :
    splitOn '\n' (write ds).toList = writtenLines ds := by
  cases ds with
  | nil => rfl
  | cons d ds =>
      have hblocks : (d :: ds).map Dialogue.write =
          ((d :: ds).map Dialogue.writtenLines).map unlines := by
        rw [List.map_map]
        exact List.map_congr_left fun e _ => e.write_eq
      have hshift := Text.cons_flatMap_concat Dialogue.writtenLines [] ds
      rw [write, String.toList_ofList, hblocks, List.map_cons, Text.joinWith_unlines,
        Text.splitOn_unlines]
      · rw [List.append_assoc, List.flatMap_map, ← hshift, writtenLines, List.flatMap_cons]
        · simp
        · simp
      · intro line hline
        rcases List.mem_append.mp hline with hfirst | hrest
        · exact h d List.mem_cons_self line hfirst
        · obtain ⟨block, hblock, hmem⟩ := List.mem_flatMap.mp hrest
          obtain ⟨e, he, rfl⟩ := List.mem_map.mp hblock
          rcases List.mem_cons.mp hmem with rfl | hmem
          · exact List.not_mem_nil
          · exact h e (List.mem_cons_of_mem _ he) line hmem

end Script

end Parley
