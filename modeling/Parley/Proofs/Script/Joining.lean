import Parley.Proofs.Script.Appending
import Parley.Proofs.Script.Refusal

/-!
# Scripts one behind the other

Two sources with a line feed between them are read to the dialogues of the first and then those of
the second, if the first leaves no comment and no code block open and the second begins with a
header. What is reported of the second is reported where its lines now stand. Only the keys can
clash.
-/

namespace Parley

open Text (byteLength)

/-! ### Where two sources meet -/

namespace Script

open Section (AllBlank Padded)

/-- Neither a comment nor a code block is open where the source ends. -/
structure EndsClosed (source : String) : Prop where
  comment : (Comment.clear false (Line.ofSource source.toList)).2 = false
  code : ∀ i ∈ items source, i.item.isCutOff = false

/-- The first line with anything else than blanks and comments on it is a header with a key. -/
def BeginsWithHeader (source : String) : Prop :=
  ∀ line, (Comment.clear false (Line.ofSource source.toList)).1.find?
      (fun line => !line.text.isEmpty) = some line →
    ∃ key, line.text = '#' :: key ∧ Text.trim key ≠ []

/-- The first line that is not empty settles whether a source begins with a header. -/
theorem beginsWithHeader_of_find? {source : String} (place : Place) (key : List Char)
    (h : (Comment.clear false (Line.ofSource source.toList)).1.find?
      (fun line => !line.text.isEmpty) = some ⟨place, '#' :: key⟩)
    (hkey : Text.trim key ≠ []) : BeginsWithHeader source := by
  intro line hline
  rw [h] at hline
  cases hline
  exact ⟨key, rfl, hkey⟩

theorem allBlank_of_header {lines : List Line}
    (h : ∀ line, lines.find? (fun line => !line.text.isEmpty) = some line →
      ∃ key, line.text = '#' :: key ∧ Text.trim key ≠ []) :
    AllBlank (Section.divide (Item.gather none lines)).1 := by
  induction lines with
  | nil => exact List.forall_mem_nil _
  | cons line lines ih =>
      obtain ⟨place, text⟩ := line
      cases text with
      | nil => exact List.forall_mem_cons.mpr ⟨rfl, ih h⟩
      | cons c text =>
          obtain ⟨key, htext, hkey⟩ := h ⟨place, c :: text⟩ rfl
          cases htext
          have hgather : Item.gather none (⟨place, '#' :: text⟩ :: lines) =
              ⟨place, .header (Text.trim text)⟩ :: Item.gather none lines := rfl
          rw [hgather, Section.divide_header hkey]
          exact List.forall_mem_nil _

/-- Lines below others add their sections to those above, which get no more than blank lines. -/
theorem partsOf_append {lines more : List Line}
    (hcomment : (Comment.clear false lines).2 = false)
    (hcode : ∀ i ∈ Item.gather none (Comment.clear false lines).1, i.item.isCutOff = false)
    (hblank : AllBlank (partsOf more).1) :
    ∃ blanks padded, AllBlank blanks ∧ Padded (partsOf lines).2 padded ∧
      partsOf (lines ++ more) = ((partsOf lines).1 ++ blanks, padded ++ (partsOf more).2) := by
  have hitems : partsOf (lines ++ more) = Section.divide
      (Item.gather none (Comment.clear false lines).1 ++
        Item.gather none (Comment.clear false more).1) := by
    rw [partsOf, Comment.clear_append, hcomment, Item.gather_append none _ _ hcode]
  rw [hitems]
  exact Section.divide_append_of_blank hblank _

variable {reg : Registry} {above source : String}

theorem ofSource_joined (above source : String) :
    Line.ofSource (above ++ "\n" ++ source).toList =
      Line.ofSource above.toList ++
        (Line.ofSource source.toList).map (Line.move (Place.below above.toList)) := by
  rw [← Line.ofSource_append, String.toList_append, String.toList_append, List.append_assoc]
  rfl

/-- A source below another is divided as by itself. -/
theorem partsOf_joined (hends : EndsClosed above) (hbegins : BeginsWithHeader source) :
    ∃ blanks padded, AllBlank blanks ∧
      Padded (partsOf (Line.ofSource above.toList)).2 padded ∧
      partsOf (Line.ofSource (above ++ "\n" ++ source).toList) =
        ((partsOf (Line.ofSource above.toList)).1 ++ blanks,
          padded ++ (partsOf (Line.ofSource source.toList)).2.map
            (Section.move (Place.below above.toList))) := by
  have hblank : AllBlank (partsOf
      ((Line.ofSource source.toList).map (Line.move (Place.below above.toList)))).1 := by
    rw [partsOf_move]
    refine List.forall_mem_map.mpr fun i hi => ?_
    have hitem : i.item = .blank := allBlank_of_header hbegins i hi
    simp only [Located.move, hitem, Item.move]
  obtain ⟨blanks, padded, hblanks, hpadded, heq⟩ := partsOf_append hends.comment hends.code hblank
  refine ⟨blanks, padded, hblanks, hpadded, ?_⟩
  rw [ofSource_joined, heq, partsOf_move]

/-- A comment that is never closed is reported behind all lines. -/
theorem endDiagnostics_append (inComment : Bool) (above source : List Char) :
    endDiagnostics inComment (above ++ '\n' :: source) =
      (endDiagnostics inComment source).map (Diagnostic.move (Place.below above)) := by
  cases inComment with
  | false => rfl
  | true =>
      have hlines : (Line.ofSource (above ++ '\n' :: source)).length =
          (Line.ofSource source).length + (above.count '\n' + 1) := by
        rw [Line.ofSource_append, List.length_append, List.length_map, Line.length_ofSource above,
          Nat.add_comm]
      have hbytes : byteLength (above ++ '\n' :: source) =
          byteLength source + (byteLength above + 1) := by
        have hfeed : ('\n' : Char).utf8Size = 1 := rfl
        rw [Text.byteLength_append, Text.byteLength_cons, hfeed]
        omega
      simp only [endDiagnostics, if_true, hlines, hbytes]
      rfl

theorem endDiagnostics_joined (hends : EndsClosed above) (source : String) :
    endDiagnostics (Comment.clear false (Line.ofSource (above ++ "\n" ++ source).toList)).2
        (above ++ "\n" ++ source).toList =
      (endDiagnostics (Comment.clear false (Line.ofSource source.toList)).2 source.toList).map
        (Diagnostic.move (Place.below above.toList)) := by
  have hcomment : (Comment.clear false (Line.ofSource (above ++ "\n" ++ source).toList)).2 =
      (Comment.clear false (Line.ofSource source.toList)).2 := by
    rw [ofSource_joined, Comment.clear_append, hends.comment, Comment.clear_move]
  rw [hcomment, ← endDiagnostics_append, String.toList_append, String.toList_append,
    List.append_assoc]
  rfl

/-! ### What two sources are read to

Whether or not their keys clash, each is read for itself. -/

/-- The dialogues of two sources are those of the one and then those of the other. -/
theorem dialogues_joined (hends : EndsClosed above) (hbegins : BeginsWithHeader source) :
    (reading reg (above ++ "\n" ++ source)).dialogues =
      (reading reg above).dialogues ++ (reading reg source).dialogues := by
  obtain ⟨blanks, padded, hblanks, hpadded, hparts⟩ := partsOf_joined hends hbegins
  have hdialogues : padded.map (Section.dialogue reg) = _ :=
    hpadded.map_eq fun s _ => Section.dialogue_pad s
  have hmoved : Section.dialogue reg ∘ Section.move (Place.below above.toList) =
      Section.dialogue reg := funext (Section.dialogue_move _ reg)
  simp only [reading, hparts]
  rw [List.map_append, hdialogues, List.map_map, hmoved]

/-- What is reported of the lower source is reported at the places where it then stands. -/
theorem diagnostics_joined (hends : EndsClosed above) (hbegins : BeginsWithHeader source) :
    (reading reg (above ++ "\n" ++ source)).diagnostics =
      (reading reg above).diagnostics ++
        (reading reg source).diagnostics.map (Diagnostic.move (Place.below above.toList)) := by
  obtain ⟨blanks, padded, hblanks, hpadded, hparts⟩ := partsOf_joined hends hbegins
  have hdiagnostics : padded.map (Section.diagnostics reg) = _ :=
    hpadded.map_eq fun s _ => Section.diagnostics_pad s
  have hbefore : Section.diagnosticsFrom reg false (partsOf (Line.ofSource source.toList)).1 =
      [] := Section.diagnosticsFrom_blanks (allBlank_of_header hbegins) false
  have hclosed : endDiagnostics (Comment.clear false (Line.ofSource above.toList)).2
      above.toList = [] := by
    rw [hends.comment]
    rfl
  simp only [reading, endDiagnostics_joined hends, hparts, hbefore, hclosed,
    Section.diagnosticsFrom_append_blanks hblanks, List.nil_append, List.append_nil,
    List.map_append, List.flatMap_append, List.append_assoc]
  rw [List.flatMap_def, hdiagnostics, ← List.flatMap_def, List.flatMap_map, List.map_flatMap]
  simp only [Section.diagnostics_move]

/-! ### Whether the keys clash -/

/-- The headings of a source that stands below another. -/
def lowered (above : String) (headings : List (String × Nat)) : List (String × Nat) :=
  headings.map fun h => (h.1, h.2 + (above.toList.count '\n' + 1))

theorem keys_lowered (above : String) (headings : List (String × Nat)) :
    (lowered above headings).map Prod.fst = headings.map Prod.fst := by
  rw [lowered, List.map_map]
  rfl

theorem names_reading (reg : Registry) (source : String) :
    (reading reg source).dialogues.map Dialogue.name = (headings source).map Prod.fst := by
  rw [← map_heading_partsOf, reading, List.map_map, List.map_map]
  rfl

/-- The headings of two sources, those of the lower one at the lines they then have. -/
theorem headings_joined (hends : EndsClosed above) (hbegins : BeginsWithHeader source) :
    headings (above ++ "\n" ++ source) = headings above ++ lowered above (headings source) := by
  obtain ⟨blanks, padded, hblanks, hpadded, hparts⟩ := partsOf_joined hends hbegins
  have hheadings : padded.map Section.heading = _ := hpadded.map_eq fun _ _ _ => rfl
  rw [← map_heading_partsOf, hparts, List.map_append, hheadings, map_heading_partsOf, lowered,
    ← map_heading_partsOf source, List.map_map, List.map_map]
  rfl

/-- Blank lines in front of the first header refuse nothing. -/
theorem orphan?_joined (hends : EndsClosed above) (hbegins : BeginsWithHeader source)
    (h : Section.orphan? none (foreword above) = none) :
    Section.orphan? none (foreword (above ++ "\n" ++ source)) = none := by
  obtain ⟨blanks, padded, hblanks, -, hparts⟩ := partsOf_joined hends hbegins
  rw [Section.orphan?_eq_none_iff] at h ⊢
  rw [← partsOf_fst, hparts, partsOf_fst]
  refine ⟨rfl, List.forall_mem_append.mpr ⟨h.2, fun i hi => ?_⟩⟩
  rw [hblanks i hi]
  rfl

/-- A key of the source that the one above it has as well, with all headers in front of it. -/
theorem exists_first_clash {names : List String} {headings : List (String × Nat)} {key : String}
    (hkey : key ∈ headings.map Prod.fst) (hname : key ∈ names) :
    ∃ before first line after, headings = before ++ (first, line) :: after ∧
      (∀ k ∈ before.map Prod.fst, k ∉ names) ∧ first ∈ names := by
  obtain ⟨h, hmem, rfl⟩ := List.mem_map.mp hkey
  cases hfind : headings.find? fun h => decide (h.1 ∈ names) with
  | none =>
      have hfresh := List.find?_eq_none.mp hfind h hmem
      exact absurd (decide_eq_true hname) hfresh
  | some first =>
      obtain ⟨hclash, before, after, hsplit, hbefore⟩ := List.find?_eq_some_iff_append.mp hfind
      refine ⟨before, first.1, first.2, after, hsplit, List.forall_mem_map.mpr fun k hk => ?_,
        of_decide_eq_true hclash⟩
      simpa using hbefore k hk

/-- The first key of the lower source that the upper one has too is the one repeated. -/
theorem repeatsAt_joined {before after : List (String × Nat)} {key : String} {line : Nat}
    (habove : ((headings above).map Prod.fst).Nodup)
    (hsource : ((headings source).map Prod.fst).Nodup)
    (hsplit : headings source = before ++ (key, line) :: after)
    (hbefore : ∀ k ∈ before.map Prod.fst, k ∉ (headings above).map Prod.fst)
    (hkey : key ∈ (headings above).map Prod.fst) :
    RepeatsAt (headings above ++ lowered above (headings source)) key
      (line + (above.toList.count '\n' + 1)) := by
  refine ⟨headings above ++ lowered above before, lowered above after, ?_, ?_, ?_⟩
  · simp [hsplit, lowered]
  · rw [hsplit, List.map_append] at hsource
    rw [List.map_append, keys_lowered]
    exact List.Nodup.append habove (List.Nodup.of_append_left hsource)
      fun k hk hk' => hbefore k hk' hk
  · rw [List.map_append]
    exact List.mem_append_left _ hkey

/-- Two sources that are accepted each for itself, the first with neither a comment nor a code
block open where it ends, the second with a header before anything else. Where they share no key,
one behind the other they are read to the dialogues and reports of both, those of the second at
the places where its lines then stand. Where they share keys they are refused together, by the
first header of the second whose key is one of the first. -/
theorem parse_joined {p q : Script} (habove : parse reg above = .ok p)
    (hsource : parse reg source = .ok q) (hends : EndsClosed above)
    (hbegins : BeginsWithHeader source) :
    ((p.dialogues.map Dialogue.name).Disjoint (q.dialogues.map Dialogue.name) →
      parse reg (above ++ "\n" ++ source) = .ok
        { dialogues := p.dialogues ++ q.dialogues
          diagnostics := p.diagnostics ++
            q.diagnostics.map (Diagnostic.move (Place.below above.toList)) }) ∧
    (∀ key, key ∈ p.dialogues.map Dialogue.name → key ∈ q.dialogues.map Dialogue.name →
      ∃ before first line after, headings source = before ++ (first, line) :: after ∧
        (∀ k ∈ before.map Prod.fst, k ∉ p.dialogues.map Dialogue.name) ∧
        first ∈ p.dialogues.map Dialogue.name ∧
        parse reg (above ++ "\n" ++ source) =
          .error (.duplicateKey first (line + (above.toList.count '\n' + 1)))) := by
  obtain ⟨rfl, horphan, hrepeated⟩ := eq_of_parse habove
  obtain ⟨rfl, -, hrepeated'⟩ := eq_of_parse hsource
  rw [partsOf_fst] at horphan
  rw [Section.nodup_headings_iff, map_heading_partsOf] at hrepeated hrepeated'
  have horphan' := orphan?_joined hends hbegins horphan
  simp only [names_reading]
  constructor
  · intro hdisjoint
    have hnodup : ((headings (above ++ "\n" ++ source)).map Prod.fst).Nodup := by
      rw [headings_joined hends hbegins, List.map_append, keys_lowered]
      exact List.Nodup.append hrepeated hrepeated' hdisjoint
    rw [← map_heading_partsOf, ← Section.nodup_headings_iff] at hnodup
    rw [← partsOf_fst] at horphan'
    rw [parse_eq_ok reg horphan' hnodup, ← dialogues_joined hends hbegins,
      ← diagnostics_joined hends hbegins]
  · intro key hkey hkey'
    obtain ⟨before, first, line, after, hsplit, hbefore, hfirst⟩ := exists_first_clash hkey' hkey
    refine ⟨before, first, line, after, hsplit, hbefore, hfirst, ?_⟩
    have hrepeats := repeatsAt_joined hrepeated hrepeated' hsplit hbefore hfirst
    rw [← headings_joined hends hbegins, ← map_heading_partsOf, ← Section.repeatsAt_iff]
      at hrepeats
    exact parse_eq_error_iff.mpr (.inr ⟨horphan', hrepeats⟩)

/-! A source that ends in the middle of an element, and two that may stand below it. -/

def upperSource : String :=
  "# a\n[Ann]: Well? /* aside\n*/\n=>\x7b\nready = true;\n\x7d\n# b\n[Ann]: There"

def lowerSource : String :=
  "// more\n\n# c\n\x7boops\x7d\n[Ann]: Here\n* a\n/* and so on"

def clashingSource : String :=
  "# c\n# b\n# a\n"

theorem upperSource_endsClosed : EndsClosed upperSource :=
  ⟨by decide +kernel, by decide +kernel⟩

theorem lowerSource_beginsWithHeader : BeginsWithHeader lowerSource :=
  beginsWithHeader_of_find? ⟨3, ⟨9, 12⟩⟩ [' ', 'c'] (by decide +kernel) (by decide)

theorem clashingSource_beginsWithHeader : BeginsWithHeader clashingSource :=
  beginsWithHeader_of_find? ⟨1, ⟨0, 3⟩⟩ [' ', 'c'] (by decide +kernel) (by decide)

theorem parse_joined_sample :
    ∃ p q r, parse Registry.implicitly upperSource = .ok p ∧
      parse Registry.implicitly lowerSource = .ok q ∧
      parse Registry.implicitly clashingSource = .ok r ∧
      EndsClosed upperSource ∧ BeginsWithHeader lowerSource ∧ BeginsWithHeader clashingSource ∧
      parse Registry.implicitly (upperSource ++ "\n" ++ lowerSource) = .ok
        { dialogues := p.dialogues ++ q.dialogues
          diagnostics := p.diagnostics ++
            q.diagnostics.map (Diagnostic.move (Place.below upperSource.toList)) } ∧
      (q.diagnostics.map fun d => (Place.below upperSource.toList d.place).line) = [12, 14, 15] ∧
      parse Registry.implicitly (upperSource ++ "\n" ++ clashingSource) =
        .error (.duplicateKey "b" 10) := by
  have hupper : parse Registry.implicitly upperSource =
      .ok (reading Registry.implicitly upperSource) := rfl
  have hlower : parse Registry.implicitly lowerSource =
      .ok (reading Registry.implicitly lowerSource) := rfl
  have hclashing : parse Registry.implicitly clashingSource =
      .ok (reading Registry.implicitly clashingSource) := rfl
  have hnames : (reading Registry.implicitly upperSource).dialogues.map Dialogue.name =
      ["a", "b"] := by decide +kernel
  have hnames' : (reading Registry.implicitly lowerSource).dialogues.map Dialogue.name =
      ["c"] := by decide +kernel
  have hheadings : headings clashingSource = [("c", 1), ("b", 2), ("a", 3)] := by decide +kernel
  refine ⟨_, _, _, hupper, hlower, hclashing, upperSource_endsClosed,
    lowerSource_beginsWithHeader, clashingSource_beginsWithHeader, ?_, by decide +kernel, ?_⟩
  · have hjoined := (parse_joined hupper hlower upperSource_endsClosed
      lowerSource_beginsWithHeader).1
    rw [hnames, hnames'] at hjoined
    exact hjoined (by simp)
  · have hrefused := (parse_joined hupper hclashing upperSource_endsClosed
      clashingSource_beginsWithHeader).2 "b" (by rw [hnames]; simp)
      (by rw [names_reading, hheadings]; simp)
    rw [hnames, hheadings] at hrefused
    obtain ⟨before, first, line, after, hsplit, hbefore, hfirst, hparse⟩ := hrefused
    rw [hparse]
    match before, hsplit, hbefore with
    | [], hsplit, _ =>
        cases hsplit
        simp at hfirst
    | [_], hsplit, _ =>
        cases hsplit
        rfl
    | _ :: _ :: _, hsplit, hbefore =>
        obtain ⟨rfl, -⟩ := List.cons.inj (List.cons.inj hsplit).2
        exact absurd (by simp) (hbefore "b" (by simp))

end Script

end Parley
