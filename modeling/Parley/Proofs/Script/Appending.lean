import Parley.Proofs.Script.Moving
import Parley.Proofs.Script.Sections
import Parley.Proofs.Text.Split

/-!
# Lines behind lines

Each step of the reader takes lines that stand behind others as it would take them alone, where
the others leave nothing open. They keep their order and their number goes on. Only the blank lines
in front of the first header among them still belong to what stands above, and there they make no
difference: they close an element that the end of the lines would have closed.
-/

namespace Parley

open Text (byteLength splitOn)

/-! ### Lines -/

/-- Where a place of a source comes to stand when a text and a line feed are put above it. -/
def Place.below (above : List Char) (p : Place) : Place :=
  ⟨p.line + (above.count '\n' + 1),
    ⟨p.span.start + (byteLength above + 1), p.span.stop + (byteLength above + 1)⟩⟩

namespace Line

/-- Lines behind others are numbered on from where these end. -/
theorem number_append (line start : Nat) (texts more : List (List Char)) :
    number line start (texts ++ more) = number line start texts ++
      number (line + texts.length)
        (start + (texts.map fun text => byteLength text + 1).sum) more := by
  induction texts generalizing line start with
  | nil => rfl
  | cons text texts ih =>
      simp only [List.cons_append, number, ih, List.length_cons, List.map_cons, List.sum_cons,
        Nat.add_assoc, Nat.add_comm 1]

/-- Numbering that begins further down moves every place by the same lines and bytes. -/
theorem number_below (above : List Char) (line start : Nat) (texts : List (List Char)) :
    number (line + (above.count '\n' + 1)) (start + (byteLength above + 1)) texts =
      (number line start texts).map (Line.move (Place.below above)) := by
  induction texts generalizing line start with
  | nil => rfl
  | cons text texts ih =>
      have hline : line + (above.count '\n' + 1) + 1 = line + 1 + (above.count '\n' + 1) := by
        omega
      have hstop : start + (byteLength above + 1) + byteLength text =
          start + byteLength text + (byteLength above + 1) := by omega
      have hnext : start + byteLength text + (byteLength above + 1) + 1 =
          start + byteLength text + 1 + (byteLength above + 1) := by omega
      simp only [number, List.map_cons, hline, hstop, hnext, ih]
      rfl

/-- A source below another has its own lines, moved. -/
theorem ofSource_append (above source : List Char) :
    ofSource (above ++ '\n' :: source) =
      ofSource above ++ (ofSource source).map (Line.move (Place.below above)) := by
  rw [ofSource, Text.splitOn_append, number_append, Text.length_splitOn]
  have hbytes := Text.sum_byteLength_splitOn '\n' above
  change ((splitOn '\n' above).map fun text => byteLength text + 1).sum = byteLength above + 1
    at hbytes
  rw [hbytes, number_below]
  rfl

theorem length_number (line start : Nat) (texts : List (List Char)) :
    (number line start texts).length = texts.length := by
  induction texts generalizing line start with
  | nil => rfl
  | cons text texts ih => rw [number, List.length_cons, ih, List.length_cons]

theorem length_ofSource (source : List Char) :
    (ofSource source).length = source.count '\n' + 1 := by
  rw [ofSource, length_number, Text.length_splitOn]

end Line

/-! ### Comments and items -/

/-- Comments are taken out of later lines as the earlier ones leave off: inside a comment or not. -/
theorem Comment.clear_append (inside : Bool) (lines more : List Line) :
    clear inside (lines ++ more) =
      ((clear inside lines).1 ++ (clear (clear inside lines).2 more).1,
        (clear (clear inside lines).2 more).2) := by
  induction lines generalizing inside with
  | nil => rfl
  | cons line lines ih =>
      simp only [List.cons_append, clear, ih]
      split
      · rfl
      · split <;> rfl

namespace Item

/-- Whether the item is a code block that the end of a source cuts off. -/
def isCutOff : Item → Bool
  | .openCode _ => true
  | _ => false

/-- Items of lines that leave no block open are gathered apart from what follows. -/
theorem gather_append (pending : Option Pending) (lines more : List Line)
    (h : ∀ i ∈ gather pending lines, i.item.isCutOff = false) :
    gather pending (lines ++ more) = gather pending lines ++ gather none more := by
  -- By induction on the lines; a block that is open at their end would be cut off, against `h`.
  induction lines generalizing pending with
  | nil =>
      cases pending with
      | none => rfl
      | some p => cases h _ List.mem_cons_self
  | cons line lines ih =>
      cases pending with
      | some p =>
          rw [List.cons_append, gather]
          rw [gather] at h ⊢
          split
          · next hclose =>
              rw [if_pos hclose] at h
              rw [ih none (List.forall_mem_cons.mp h).2, List.cons_append]
          · next hopen =>
              rw [if_neg hopen] at h
              exact ih (some (p.push line)) h
      | none =>
          rw [List.cons_append, gather]
          rw [gather] at h ⊢
          cases hform : formOf line.place line.text with
          | item item =>
              simp only [hform] at h
              simp only [ih none (List.forall_mem_cons.mp h).2, List.cons_append]
          | opensCode condition first =>
              simp only [hform] at h
              exact ih _ h

end Item

/-! ### Blank lines at the end of a section -/

namespace Section

variable {reg : Registry} {items blanks : List Located}

/-- Nothing but blank items. -/
def AllBlank (items : List Located) : Prop :=
  ∀ i ∈ items, i.item = .blank

theorem elementsFrom_blanks {blanks : List Item} (h : ∀ i ∈ blanks, i = .blank)
    (speaker : Option Speaker) (draft : Option Draft) :
    elementsFrom reg speaker draft blanks = (draft.map Draft.element).toList := by
  induction blanks generalizing draft with
  | nil => rfl
  | cons i blanks ih =>
      obtain ⟨rfl, hrest⟩ := List.forall_mem_cons.mp h
      rw [elementsFrom, ih hrest, Option.map_none, Option.toList_none, List.append_nil]

/-- Blank items at the end change no element: what they close would have been closed. -/
theorem elementsFrom_append_blanks {blanks : List Item} (h : ∀ i ∈ blanks, i = .blank)
    (speaker : Option Speaker) (draft : Option Draft) (items : List Item) :
    elementsFrom reg speaker draft (items ++ blanks) = elementsFrom reg speaker draft items := by
  induction items generalizing speaker draft with
  | nil => exact elementsFrom_blanks h speaker draft
  | cons i items ih => cases i <;> simp only [List.cons_append, elementsFrom, ih]

theorem diagnosticsFrom_blanks (h : AllBlank blanks) (isOpen : Bool) :
    diagnosticsFrom reg isOpen blanks = [] := by
  induction blanks generalizing isOpen with
  | nil => rfl
  | cons i blanks ih =>
      obtain ⟨hblank, hrest⟩ := List.forall_mem_cons.mp h
      rw [diagnosticsFrom, hblank, ih hrest]
      rfl

/-- Later items are reported alike, but for an element that the earlier ones left open. -/
theorem diagnosticsFrom_append (isOpen : Bool) (items more : List Located) :
    diagnosticsFrom reg isOpen (items ++ more) = diagnosticsFrom reg isOpen items ++
      diagnosticsFrom reg ((items.map Located.item).foldl opens isOpen) more := by
  induction items generalizing isOpen with
  | nil => rfl
  | cons i items ih =>
      simp only [List.cons_append, diagnosticsFrom, ih, List.map_cons, List.foldl_cons,
        List.append_assoc]

theorem diagnosticsFrom_append_blanks (h : AllBlank blanks) (isOpen : Bool)
    (items : List Located) :
    diagnosticsFrom reg isOpen (items ++ blanks) = diagnosticsFrom reg isOpen items := by
  rw [diagnosticsFrom_append, diagnosticsFrom_blanks h, List.append_nil]

/-- A section with further items at its end. -/
def pad (s : Section) (blanks : List Located) : Section :=
  { s with items := s.items ++ blanks }

/-- Blank lines behind a section leave its dialogue as it is. -/
theorem dialogue_pad (s : Section) (h : AllBlank blanks) :
    dialogue reg (s.pad blanks) = dialogue reg s := by
  have hblanks : ∀ i ∈ blanks.map Located.item, i = .blank := List.forall_mem_map.mpr h
  have hflags : ∀ i ∈ blanks.map Located.item, itemFlags i = {} := by
    intro i hi
    rw [hblanks i hi]
    rfl
  have hexits : (blanks.map Located.item).filterMap itemExit = [] := by
    rw [List.filterMap_eq_nil_iff]
    intro i hi
    rw [hblanks i hi]
    rfl
  simp only [dialogue, pad, List.map_append, List.foldl_append, List.filterMap_append]
  rw [foldl_union_of_flagless hflags, elementsFrom_append_blanks hblanks, hexits, List.append_nil]

/-- Blank lines behind a section leave its reports as they are. -/
theorem diagnostics_pad (s : Section) (h : AllBlank blanks) :
    diagnostics reg (s.pad blanks) = diagnostics reg s :=
  diagnosticsFrom_append_blanks h false s.items

/-- Sections that others are but for blank lines at their ends. -/
abbrev Padded (sections padded : List Section) : Prop :=
  List.Forall₂ (fun s t => ∃ blanks, AllBlank blanks ∧ t = s.pad blanks) sections padded

/-- What does not see blank lines at the end of a section does not tell padded ones apart. -/
theorem Padded.map_eq {α : Type} {f : Section → α} {sections padded : List Section}
    (h : Padded sections padded) (hf : ∀ s blanks, AllBlank blanks → f (s.pad blanks) = f s) :
    padded.map f = sections.map f := by
  induction h with
  | nil => rfl
  | cons hfirst _ ih =>
      obtain ⟨blanks, hblanks, rfl⟩ := hfirst
      rw [List.map_cons, List.map_cons, hf _ blanks hblanks, ih]

/-- Items behind others, with nothing but blank lines in front of the first header among them. -/
theorem divide_append_of_blank {more : List Located} (h : AllBlank (divide more).1)
    (items : List Located) :
    ∃ blanks padded, AllBlank blanks ∧ Padded (divide items).2 padded ∧
      divide (items ++ more) = ((divide items).1 ++ blanks, padded ++ (divide more).2) := by
  induction items with
  | nil => exact ⟨(divide more).1, [], h, .nil, rfl⟩
  | cons i items ih =>
      obtain ⟨blanks, padded, hblanks, hpadded, heq⟩ := ih
      obtain ⟨place, item⟩ := i
      rw [List.cons_append, divide, divide, heq]
      cases item with
      | header key =>
          cases key with
          | nil => exact ⟨blanks, padded, hblanks, hpadded, rfl⟩
          | cons c key =>
              exact ⟨[], pad ⟨place, c :: key, (divide items).1⟩ blanks :: padded,
                List.forall_mem_nil _, .cons ⟨blanks, hblanks, rfl⟩ hpadded, rfl⟩
      | _ => exact ⟨blanks, padded, hblanks, hpadded, rfl⟩

end Section

end Parley
