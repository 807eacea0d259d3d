import Parley.Proofs.Script.Lines
import Parley.Proofs.Script.Marks
import Parley.Proofs.Script.Moving

/-!
# Lines that read as items

The reader takes a text block by block: a block of lines reads as a list of items if it does so
in front of any further lines. Blocks one behind the other read as their items one behind the
other, so that each part of a graph can be looked at on its own.

## Implementation notes

Where a line stands makes no difference to the items, as moving a script shows. The lines and
items here all stand at the same place, `Place.nowhere`.
-/

namespace Parley

open Text (trim Trimmed)
open Script (Plain)

/-! ### Places put aside -/

/-- A place that stands for any. -/
def Place.nowhere : Place := ⟨0, ⟨0, 0⟩⟩

/-- A line without its place. -/
def Line.bare (text : List Char) : Line := ⟨Place.nowhere, text⟩

/-- An item of which the place does not matter. -/
def Located.bare (item : Item) : Located := ⟨Place.nowhere, item⟩

theorem Line.number_bare (line start : Nat) (texts : List (List Char)) :
    (number line start texts).map (Line.move fun _ => Place.nowhere) = texts.map Line.bare := by
  induction texts generalizing line start with
  | nil => rfl
  | cons text texts ih => rw [number, List.map_cons, List.map_cons, ih]; rfl

/-! ### Lines without comments -/

namespace Comment

theorem cut_eq_self {cs : List Char} (h : ¬ ['/', '*'] <:+: cs) :
    cut false cs = ⟨cs, false, false⟩ :=
  @cut_unmarked false cs h

/-- A line is a comment where it begins with two slashes. -/
theorem isLineComment_iff {cs : List Char} : isLineComment cs = true ↔ ['/', '/'] <+: cs := by
  unfold isLineComment
  split
  · simp
  · next hne =>
      refine ⟨fun hfalse => absurd hfalse (by decide), ?_⟩
      rintro ⟨rest, rfl⟩
      exact absurd rfl (hne rest)

/-- A line on which there is no comment. -/
structure Absent (line : List Char) : Prop where
  plain : Plain line
  not_comment : ¬ ['/', '/'] <+: trim line

/-- Lines without comments are only trimmed. -/
theorem clear_of_absent {texts : List (List Char)} (h : ∀ text ∈ texts, Absent text) :
    clear false (texts.map Line.bare) = (texts.map fun text => Line.bare (trim text), false) := by
  induction texts with
  | nil => rfl
  | cons text texts ih =>
      have habsent := h text List.mem_cons_self
      have hcut : cut false (trim text) = ⟨trim text, false, false⟩ :=
        cut_eq_self fun hi => habsent.plain.2 (hi.trans (Text.trim_isInfix text))
      have hline : isLineComment (trim text) = false := by
        rw [← Bool.not_eq_true, isLineComment_iff]
        exact habsent.not_comment
      have htext : (⟨trim text, false, false⟩ : Remains).text? = some (trim text) := by
        simp [Remains.text?, Text.trim_trim]
      have hrest := ih fun t ht => h t (List.mem_cons_of_mem _ ht)
      rw [List.map_cons, clear]
      simp only [show (Line.bare text).text = text from rfl, hcut, htext, hrest]
      simp [hline, Line.bare]

end Comment

/-! ### Blocks of lines -/

open Item (gather formOf Pending)

/-- The lines hold no comment and read as the items, whatever stands below them. -/
structure ReadAs (lines : List (List Char)) (items : List Item) : Prop where
  absent : ∀ line ∈ lines, Comment.Absent line
  gathered : ∀ below, gather none (lines.map (fun line => Line.bare (trim line)) ++ below) =
    items.map Located.bare ++ gather none below

namespace ReadAs

theorem nil : ReadAs [] [] := ⟨by simp, fun _ => rfl⟩

/-- Blocks of lines that are read by themselves are read one behind the other. -/
theorem append {lines others : List (List Char)} {items others' : List Item}
    (h : ReadAs lines items) (h' : ReadAs others others') :
    ReadAs (lines ++ others) (items ++ others') := by
  constructor
  · intro line hline
    rcases List.mem_append.mp hline with hl | hl
    · exact h.absent line hl
    · exact h'.absent line hl
  · intro below
    rw [List.map_append, List.append_assoc, h.gathered, h'.gathered, List.map_append,
      List.append_assoc]

theorem cons {line : List Char} {lines : List (List Char)} {item : Item} {items : List Item}
    (h : ReadAs [line] [item]) (h' : ReadAs lines items) :
    ReadAs (line :: lines) (item :: items) :=
  h.append h'

theorem map {α : Type} {line : α → List Char} {item : α → Item} {as : List α}
    (h : ∀ a ∈ as, ReadAs [line a] [item a]) : ReadAs (as.map line) (as.map item) := by
  induction as with
  | nil => exact nil
  | cons a as ih =>
      exact (h a List.mem_cons_self).cons (ih fun b hb => h b (List.mem_cons_of_mem _ hb))

theorem flatMap {α : Type} {lines : α → List (List Char)} {items : α → List Item} {as : List α}
    (h : ∀ a ∈ as, ReadAs (lines a) (items a)) : ReadAs (as.flatMap lines) (as.flatMap items) := by
  induction as with
  | nil => exact nil
  | cons a as ih =>
      exact (h a List.mem_cons_self).append (ih fun b hb => h b (List.mem_cons_of_mem _ hb))

/-- One line is read by itself. -/
theorem line {line : List Char} {item : Item} (habsent : Comment.Absent line)
    (hform : formOf Place.nowhere (trim line) = .item item) : ReadAs [line] [item] := by
  constructor
  · rintro _ (_ | ⟨_, ⟨⟩⟩)
    exact habsent
  · intro below
    simp only [List.map_cons, List.map_nil, List.cons_append, List.nil_append, gather, Line.bare,
      hform]
    rfl

end ReadAs

/-- A code block swallows all lines up to the closing brace. -/
theorem Item.gather_body (p : Pending) {body : List Line} (h : ∀ line ∈ body, line.text ≠ ['\x7d'])
    (close : Line) (hclose : close.text = ['\x7d']) (below : List Line) :
    gather (some p) (body ++ close :: below) =
      ⟨p.place, .code p.condition (p.body ++ body)⟩ :: gather none below := by
  induction body generalizing p with
  | nil => simp [gather, hclose]
  | cons line body ih =>
      rw [List.cons_append, gather, if_neg (h line List.mem_cons_self),
        ih (p.push line) fun l hl => h l (List.mem_cons_of_mem _ hl)]
      simp [Pending.push]

/-- A code block that is opened on one line and closed on another. -/
theorem ReadAs.code {opening condition : List Char} {first : List Line}
    {lines : List (List Char)} (habsent : Comment.Absent opening)
    (hform : formOf Place.nowhere (trim opening) = .opensCode condition first)
    (hlines : ∀ line ∈ lines, Comment.Absent line ∧ trim line ≠ ['\x7d']) :
    ReadAs (opening :: lines ++ [['\x7d']])
      [.code condition (first ++ lines.map fun line => Line.bare (trim line))] := by
  constructor
  · refine List.forall_mem_append.mpr ⟨List.forall_mem_cons.mpr ⟨habsent, ?_⟩, ?_⟩
    · exact fun line hline => (hlines line hline).1
    · exact List.forall_mem_singleton.mpr ⟨by decide, by decide⟩
  · intro below
    have hclose : ∀ line ∈ lines.map (fun line => Line.bare (trim line)),
        line.text ≠ ['\x7d'] := List.forall_mem_map.mpr fun line hline => (hlines line hline).2
    have hgather := Item.gather_body ⟨Place.nowhere, condition, first⟩ hclose
      (Line.bare ['\x7d']) rfl below
    rw [List.map_append, List.map_cons, List.append_assoc, List.cons_append, gather]
    simp only [Line.bare, hform] at hgather ⊢
    exact hgather

/-! ### Whole scripts -/

/-- Lines that are read to items are divided as the items are. -/
theorem ReadAs.partsOf {texts : List (List Char)} {items : List Item} (h : ReadAs texts items) :
    Script.partsOf (texts.map Line.bare) = Section.divide (items.map Located.bare) := by
  have hgathered := h.gathered []
  rw [List.append_nil, gather, List.append_nil] at hgathered
  rw [Script.partsOf, Comment.clear_of_absent h.absent, hgathered]

namespace Script

variable {reg : Registry} {source : String} {items : List Item}

theorem ofSource_bare (source : String) :
    (Line.ofSource source.toList).map (Line.move fun _ => Place.nowhere) =
      (Text.splitOn '\n' source.toList).map Line.bare :=
  Line.number_bare 1 0 _

/-- A source whose lines are read leaves no comment open. -/
theorem not_inComment_of_readAs (h : ReadAs (Text.splitOn '\n' source.toList) items) :
    (Comment.clear false (Line.ofSource source.toList)).2 = false := by
  have hclear := Comment.clear_move (fun _ => Place.nowhere) false (Line.ofSource source.toList)
  rw [ofSource_bare, Comment.clear_of_absent h.absent, Prod.mk.injEq] at hclear
  exact hclear.2.symm

/-- A source whose lines read as items is parsed to the sections that the items fall into. -/
theorem parse_of_readAs {before : List Located} {sections : List Section}
    (h : ReadAs (Text.splitOn '\n' source.toList) items)
    (hdivide : Section.divide (items.map Located.bare) = (before, sections))
    (horphan : Section.orphan? none before = none)
    (hrepeated : Section.repeated? [] sections = none) :
    ∃ script, parse reg source = .ok script ∧
      script.dialogues = sections.map (Section.dialogue reg) ∧
      script.diagnostics.map Diagnostic.problem =
        (Section.diagnosticsFrom reg false before).map Diagnostic.problem ++
          sections.flatMap fun s => (Section.diagnostics reg s).map Diagnostic.problem := by
  -- Both readings are the same but for the places, and this one is known.
  let f : Place → Place := fun _ => Place.nowhere
  let g : Nat → Nat := fun _ => 0
  have hline : ∀ place, (f place).line = g place.line := fun _ => rfl
  have hparts := partsOf_move f (Line.ofSource source.toList)
  rw [ofSource_bare, h.partsOf, hdivide, Prod.mk.injEq] at hparts
  obtain ⟨rfl, rfl⟩ := hparts
  have hfront := Section.orphan?_move hline none (partsOf (Line.ofSource source.toList)).1
  rw [Option.map_none, horphan] at hfront
  rw [Section.repeated?_move hline] at hrepeated
  have hparse := parse_eq_ok reg (Option.map_eq_none_iff.mp hfront.symm)
    (Option.map_eq_none_iff.mp hrepeated)
  rw [reading] at hparse
  refine ⟨_, hparse, ?_, ?_⟩
  · rw [List.map_map]
    exact List.map_congr_left fun s _ => (Section.dialogue_move f reg s).symm
  · have hproblem : Diagnostic.problem ∘ Diagnostic.move f = Diagnostic.problem := rfl
    rw [not_inComment_of_readAs h, endDiagnostics, if_neg (by decide), List.append_nil,
      List.map_append, List.map_flatMap, List.flatMap_map, Section.diagnosticsFrom_move,
      List.map_map, hproblem]
    simp only [Section.diagnostics_move, List.map_map, hproblem]

end Script

end Parley
