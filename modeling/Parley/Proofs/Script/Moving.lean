import Parley.Script.Basic

/-!
# Moving a script

The lines of a script carry their places along. Every step of the reader hands the places on as
they are: it makes the same of lines that stand elsewhere, at the other places. What a dialogue
holds has no place in it at all.
-/

namespace Parley

variable (f : Place → Place)

/-- The line at another place. -/
def Line.move (line : Line) : Line :=
  { line with place := f line.place }

/-- The report at another place. -/
def Diagnostic.move (d : Diagnostic) : Diagnostic :=
  { d with place := f d.place }

/-- The refusal at another line. -/
def ScriptError.move (g : Nat → Nat) : ScriptError → ScriptError
  | .orphan content line => .orphan content (g line)
  | .duplicateKey key line => .duplicateKey key (g line)

/-! ### Comments -/

/-- Comments are taken out alike wherever the lines stand. -/
theorem Comment.clear_move (inside : Bool) (lines : List Line) :
    Comment.clear inside (lines.map (Line.move f)) =
      ((Comment.clear inside lines).1.map (Line.move f), (Comment.clear inside lines).2) := by
  induction lines generalizing inside with
  | nil => rfl
  | cons line lines ih =>
      simp only [List.map_cons, clear, Line.move, ih]
      split
      · rfl
      · split <;> rfl

/-! ### Items -/

namespace Item

/-- The lines of a code block are the only places in an item. -/
def move : Item → Item
  | .code condition body => .code condition (body.map (Line.move f))
  | item => item

end Item

/-- The item at another place, with the lines of its code. -/
def Located.move (i : Located) : Located :=
  ⟨f i.place, i.item.move f⟩

namespace Item

def Form.move : Form → Form
  | .item i => .item (i.move f)
  | .opensCode condition first => .opensCode condition (first.map (Line.move f))

def Pending.move (p : Pending) : Pending :=
  ⟨f p.place, p.condition, p.body.map (Line.move f)⟩

theorem codeForm_move (place : Place) (condition rest : List Char) :
    codeForm (f place) condition rest = (codeForm place condition rest).move f := by
  simp only [codeForm]
  cases Text.dropLast? '\x7d' (Text.trim rest) with
  | some body => rfl
  | none =>
      by_cases hempty : (Text.trim rest).isEmpty = true
      · simp [Form.move, hempty]
      · simp [Form.move, hempty, Line.move]

theorem braceForm_move (place : Place) (afterBrace : List Char) :
    braceForm (f place) afterBrace = (braceForm place afterBrace).move f := by
  unfold braceForm
  split
  · exact codeForm_move f place _ _
  · split <;> rfl

/-- A line is read alike wherever it stands. -/
theorem formOf_move (place : Place) (text : List Char) :
    formOf (f place) text = (formOf place text).move f := by
  unfold formOf
  split
  · rfl
  · rfl
  · exact braceForm_move f place _
  · exact codeForm_move f place _ _
  · rfl
  · rfl
  · split <;> rfl
  · rfl

/-- Items are gathered alike wherever the lines stand. -/
theorem gather_move (p : Option Pending) (lines : List Line) :
    gather (p.map (Pending.move f)) (lines.map (Line.move f)) =
      (gather p lines).map (Located.move f) := by
  -- The open block moves with the lines it has taken, and stays the invariant.
  induction lines generalizing p with
  | nil => cases p <;> rfl
  | cons line lines ih =>
      cases p with
      | some p =>
          simp only [List.map_cons, Option.map_some, gather]
          by_cases hclose : line.text = ['\x7d']
          · have hrest := ih none
            rw [Option.map_none] at hrest
            rw [if_pos (show (line.move f).text = ['\x7d'] from hclose), if_pos hclose, hrest]
            rfl
          · have hpush : (p.move f).push (line.move f) = (p.push line).move f := by
              simp [Pending.push, Pending.move]
            rw [if_neg (show ¬ (line.move f).text = ['\x7d'] from hclose), if_neg hclose, hpush]
            exact ih (some (p.push line))
      | none =>
          have hform : formOf (line.move f).place (line.move f).text =
              (formOf line.place line.text).move f := formOf_move f line.place line.text
          simp only [List.map_cons, Option.map_none, gather, hform]
          cases formOf line.place line.text with
          | item item =>
              have hrest := ih none
              rw [Option.map_none] at hrest
              simp only [Form.move, hrest]
              rfl
          | opensCode condition first => exact ih (some ⟨line.place, condition, first⟩)

end Item

/-! ### Sections -/

namespace Section

def move (s : Section) : Section :=
  ⟨f s.place, s.key, s.items.map (Located.move f)⟩

/-- Items are divided alike wherever they stand. -/
theorem divide_move (items : List Located) :
    divide (items.map (Located.move f)) =
      ((divide items).1.map (Located.move f), (divide items).2.map (move f)) := by
  induction items with
  | nil => rfl
  | cons i items ih =>
      obtain ⟨place, item⟩ := i
      rw [List.map_cons, divide, ih]
      cases item with
      | header key => cases key <;> rfl
      | _ => rfl

theorem itemFlags_move (item : Item) : itemFlags (item.move f) = itemFlags item := by
  cases item <;> rfl

theorem statements_move (body : List Line) :
    Code.statements (body.map (Line.move f)) = Code.statements body := by
  simp only [Code.statements, List.flatMap_map]
  rfl

/-- Exits have no places. -/
theorem itemExit_move (item : Item) : itemExit (item.move f) = itemExit item := by
  cases item with
  | code condition body => simp only [Item.move, itemExit, statements_move]
  | redirect condition key => cases key <;> rfl
  | _ => rfl

/-- Elements have no places. -/
theorem elementsFrom_move (reg : Registry) (speaker : Option Speaker) (draft : Option Draft)
    (items : List Item) :
    elementsFrom reg speaker draft (items.map (Item.move f)) =
      elementsFrom reg speaker draft items := by
  induction items generalizing speaker draft with
  | nil => rfl
  | cons i items ih => cases i <;> simp only [List.map_cons, Item.move, elementsFrom, ih]

/-- What a dialogue holds does not depend on where its lines stand. -/
theorem dialogue_move (reg : Registry) (s : Section) :
    dialogue reg (s.move f) = dialogue reg s := by
  have hitems : (s.items.map (Located.move f)).map Located.item =
      (s.items.map Located.item).map (Item.move f) := by
    rw [List.map_map, List.map_map]
    rfl
  have hflags : itemFlags ∘ Item.move f = itemFlags := funext (itemFlags_move f)
  have hexits : itemExit ∘ Item.move f = itemExit := funext (itemExit_move f)
  simp only [dialogue, move]
  rw [hitems, elementsFrom_move, List.map_map, List.filterMap_map, hflags, hexits]

/-! ### What is reported -/

/-- What is wrong with an item does not depend on its place. -/
theorem itemProblems_move (reg : Registry) (isOpen : Bool) (item : Item) :
    itemProblems reg isOpen (item.move f) = itemProblems reg isOpen item := by
  cases item <;> rfl

theorem opens_move (isOpen : Bool) (item : Item) :
    opens isOpen (item.move f) = opens isOpen item := by
  cases item <;> rfl

theorem bodyDiagnostics_move (item : Item) :
    bodyDiagnostics (item.move f) = (bodyDiagnostics item).map (Diagnostic.move f) := by
  cases item with
  | code condition body =>
      simp only [Item.move, bodyDiagnostics, Code.diagnostics, List.flatMap_map, List.map_flatMap,
        List.map_map]
      rfl
  | _ => rfl

/-- The same is reported of items elsewhere, at their places there. -/
theorem diagnosticsFrom_move (reg : Registry) (isOpen : Bool) (items : List Located) :
    diagnosticsFrom reg isOpen (items.map (Located.move f)) =
      (diagnosticsFrom reg isOpen items).map (Diagnostic.move f) := by
  induction items generalizing isOpen with
  | nil => rfl
  | cons i items ih =>
      simp only [List.map_cons, Located.move, diagnosticsFrom, itemProblems_move,
        bodyDiagnostics_move, opens_move, ih, List.map_append, List.map_map]
      rfl

theorem diagnostics_move (reg : Registry) (s : Section) :
    diagnostics reg (s.move f) = (diagnostics reg s).map (Diagnostic.move f) :=
  diagnosticsFrom_move f reg false s.items

/-! ### What refuses a script -/

section Refusal

variable {f} {g : Nat → Nat} (hline : ∀ place, (f place).line = g place.line)

include hline

/-- Content above all headers is refused wherever it stands, at the line it then has. -/
theorem orphan?_move (textLine : Option Nat) (items : List Located) :
    orphan? (textLine.map g) (items.map (Located.move f)) =
      (orphan? textLine items).map (ScriptError.move g) := by
  induction items generalizing textLine with
  | nil => cases textLine <;> rfl
  | cons i items ih =>
      obtain ⟨place, item⟩ := i
      cases item with
      | choice body => exact ih textLine
      | text content =>
          have hbegun : some ((textLine.map g).getD (f place).line) =
              (some (textLine.getD place.line)).map g := by
            cases textLine <;> simp [hline]
          simp only [List.map_cons, Located.move, Item.move, orphan?, hbegun]
          exact ih (some (textLine.getD place.line))
      | blank | header key =>
          cases textLine with
          | none => exact ih none
          | some begun => rfl
      | speaker name rest =>
          cases textLine with
          | none =>
              simp only [List.map_cons, Located.move, Item.move, orphan?, Option.map_none, hline]
              exact ih (some place.line)
          | some begun => rfl
      | flags list | redirect condition key | code condition body | openCode condition =>
          simp [Located.move, Item.move, orphan?, ScriptError.move, hline]

/-- A repeated key is refused wherever it stands, at the line it then has. -/
theorem repeated?_move (earlier : List (List Char)) (sections : List Section) :
    repeated? earlier (sections.map (move f)) =
      (repeated? earlier sections).map (ScriptError.move g) := by
  induction sections generalizing earlier with
  | nil => rfl
  | cons s sections ih =>
      simp only [List.map_cons, repeated?, move]
      split
      · simp [ScriptError.move, hline]
      · exact ih _

end Refusal

end Section

/-! ### Whole scripts -/

namespace Script

/-- The items in front of the first section, and the sections. -/
def partsOf (lines : List Line) : List Located × List Section :=
  Section.divide (Item.gather none (Comment.clear false lines).1)

/-- A source is divided alike wherever its lines stand. -/
theorem partsOf_move (lines : List Line) :
    partsOf (lines.map (Line.move f)) =
      ((partsOf lines).1.map (Located.move f), (partsOf lines).2.map (Section.move f)) := by
  have hgather := Item.gather_move f none (Comment.clear false lines).1
  rw [Option.map_none] at hgather
  rw [partsOf, Comment.clear_move, hgather, Section.divide_move]
  rfl

/-- What a source is read to, if nothing refuses it. -/
def reading (reg : Registry) (source : String) : Script where
  dialogues := (partsOf (Line.ofSource source.toList)).2.map (Section.dialogue reg)
  diagnostics :=
    Section.diagnosticsFrom reg false (partsOf (Line.ofSource source.toList)).1 ++
      (partsOf (Line.ofSource source.toList)).2.flatMap (Section.diagnostics reg) ++
      endDiagnostics (Comment.clear false (Line.ofSource source.toList)).2 source.toList

/-- A source that nothing refuses is accepted with all that is read off it. -/
theorem parse_eq_ok (reg : Registry) {source : String}
    (horphan : Section.orphan? none (partsOf (Line.ofSource source.toList)).1 = none)
    (hrepeated : Section.repeated? [] (partsOf (Line.ofSource source.toList)).2 = none) :
    parse reg source = .ok (reading reg source) := by
  unfold partsOf at horphan hrepeated
  simp only [parse, horphan, hrepeated]
  rfl

theorem eq_of_parse {reg : Registry} {source : String} {script : Script}
    (h : parse reg source = .ok script) :
    script = reading reg source ∧
      Section.orphan? none (partsOf (Line.ofSource source.toList)).1 = none ∧
      Section.repeated? [] (partsOf (Line.ofSource source.toList)).2 = none := by
  simp only [parse] at h
  split at h
  · contradiction
  · next horphan =>
      split at h
      · contradiction
      · next hrepeated => exact ⟨(Except.ok.inj h).symm, horphan, hrepeated⟩

end Script

end Parley
