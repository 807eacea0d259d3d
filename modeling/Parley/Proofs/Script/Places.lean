import Parley.Proofs.Expr.Refusal
import Parley.Proofs.Script.Appending
import Parley.Proofs.Script.Refusal

/-!
# Where diagnostics stand

Every diagnostic of a script stands on a line of its source, on just the bytes of that line, and
the diagnostics are in the order of the lines. Only a comment that is never closed is told of
behind all lines.

## Implementation notes

What is wrong in a block of code is told where the block closes, at the places its lines had when
they were read. The order holds all the same, because an open block takes every line and so nothing
else is told in between. That is why diagnostics are compared with the places of all lines, by a
relation that may stay at a place or pass it but never turns back.
-/

namespace Parley

open Text (byteLength)

/-! ### Places of lines -/

/-- The number of a line of the source and the bytes it stands on, without its line feed. -/
def Place.IsLineOf (source : List Char) (p : Place) : Prop :=
  ∃ before text after, source = before ++ text ++ after ∧ '\n' ∉ text ∧
    (∀ c ∈ before.getLast?, c = '\n') ∧ (∀ c ∈ after.head?, c = '\n') ∧
    p = ⟨before.count '\n' + 1, ⟨byteLength before, byteLength before + byteLength text⟩⟩

namespace Place

theorem isLineOf_alone {source : List Char} (h : '\n' ∉ source) :
    IsLineOf source ⟨1, ⟨0, byteLength source⟩⟩ :=
  ⟨[], source, [], by simp, h, by simp, by simp, by simp⟩

theorem isLineOf_first {above : List Char} (h : '\n' ∉ above) (source : List Char) :
    IsLineOf (above ++ '\n' :: source) ⟨1, ⟨0, byteLength above⟩⟩ :=
  ⟨[], above, '\n' :: source, by simp, h, by simp, by simp, by simp⟩

/-- A line of the lower text is a line of both, at the place it then has. -/
theorem IsLineOf.below {source : List Char} {p : Place} (h : p.IsLineOf source)
    (above : List Char) : (p.below above).IsLineOf (above ++ '\n' :: source) := by
  obtain ⟨before, text, after, rfl, htext, hbefore, hafter, rfl⟩ := h
  have hfeed : ('\n' : Char).utf8Size = 1 := rfl
  refine ⟨above ++ '\n' :: before, text, after, by simp, htext, ?_, hafter, ?_⟩
  · rw [List.getLast?_append_cons]
    cases before with
    | nil => simp
    | cons c before => rwa [List.getLast?_cons_cons]
  · simp only [Place.below, List.count_append, List.count_cons_self, Text.byteLength_append,
      Text.byteLength_cons, hfeed, Place.mk.injEq, Text.Span.mk.injEq]
    omega

/-- Every line that is read stands at the place of a line of the source. -/
theorem isLineOf_of_mem_ofSource (source : List Char) :
    ∀ line ∈ Line.ofSource source, line.place.IsLineOf source := by
  induction hlength : source.length using Nat.strongRecOn generalizing source with
  | ind n ih =>
      by_cases hfeed : '\n' ∈ source
      · obtain ⟨above, rest, rfl, habove⟩ := List.eq_append_cons_of_mem hfeed
        have hrest := ih rest.length (by simp [← hlength]; omega) rest rfl
        have hfirst : Line.ofSource above = [⟨⟨1, ⟨0, byteLength above⟩⟩, above⟩] := by
          rw [Line.ofSource, Text.splitOn_of_notMem habove]
          simp [Line.number]
        rw [Line.ofSource_append, hfirst]
        refine List.forall_mem_cons.mpr ⟨isLineOf_first habove rest, ?_⟩
        exact List.forall_mem_map.mpr fun line hline => (hrest line hline).below above
      · rw [Line.ofSource, Text.splitOn_of_notMem hfeed]
        simpa [Line.number] using isLineOf_alone hfeed

/-- Neither the number nor the start of the first place is behind that of the second. -/
def NotBehind (p q : Place) : Prop :=
  p.line ≤ q.line ∧ p.span.start ≤ q.span.start

theorem NotBehind.refl (p : Place) : p.NotBehind p :=
  ⟨Nat.le_refl _, Nat.le_refl _⟩

theorem notBehind_of_mem_number {line start : Nat} {texts : List (List Char)} {l : Line}
    (h : l ∈ Line.number line start texts) :
    line ≤ l.place.line ∧ start ≤ l.place.span.start := by
  induction texts generalizing line start with
  | nil => exact absurd h List.not_mem_nil
  | cons text texts ih =>
      obtain rfl | hrest := List.mem_cons.mp h
      · exact ⟨Nat.le_refl _, Nat.le_refl _⟩
      · have hbehind := ih hrest
        omega

/-- Lines come one behind the other, by number as by byte. -/
theorem notBehind_number (line start : Nat) (texts : List (List Char)) :
    ((Line.number line start texts).map Line.place).Pairwise NotBehind := by
  induction texts generalizing line start with
  | nil => exact .nil
  | cons text texts ih =>
      refine List.Pairwise.cons (List.forall_mem_map.mpr fun l hl => ?_) (ih _ _)
      obtain ⟨hline, hstart⟩ := notBehind_of_mem_number hl
      refine ⟨Nat.le_of_succ_le hline, ?_⟩
      dsimp only
      omega

end Place

/-! ### Going along places -/

/-- The diagnostics stand at some of the places, in the order of the places. Several may stand at
one. -/
inductive Along : List Place → List Diagnostic → Prop
  | nil (places : List Place) : Along places []
  | stay {p : Place} {places : List Place} {d : Diagnostic} {ds : List Diagnostic}
      (hd : d.place = p) (h : Along (p :: places) ds) : Along (p :: places) (d :: ds)
  | pass {p : Place} {places : List Place} {ds : List Diagnostic} (h : Along places ds) :
      Along (p :: places) ds

namespace Along

variable {p : Place} {places more : List Place} {ds es : List Diagnostic}

/-- More places may be passed on the way. -/
theorem of_sublist (h : Along places ds) (hsub : places.Sublist more) : Along more ds := by
  induction h generalizing more with
  | nil places => exact .nil more
  | @stay p places d ds hd _ ih =>
      induction more with
      | nil => cases hsub
      | cons q more ihmore =>
          cases hsub with
          | cons _ hrest => exact .pass (ihmore hrest)
          | cons_cons _ hrest => exact .stay hd (ih (hrest.cons_cons _))
  | @pass p places ds _ ih => exact ih ((List.sublist_cons_self p places).trans hsub)

/-- Diagnostics that go along some places, and then along others, go along all of them. -/
theorem append (h : Along places ds) (h' : Along more es) : Along (places ++ more) (ds ++ es) := by
  induction h with
  | nil places => exact h'.of_sublist (List.sublist_append_right places more)
  | stay hd _ ih => exact .stay hd ih
  | pass _ ih => exact .pass ih

/-- Standing at a place twice in a row is standing there. -/
theorem collapse (h : Along (p :: p :: places) ds) : Along (p :: places) ds := by
  generalize hall : p :: p :: places = all at h
  induction h with
  | nil => exact .nil _
  | stay hd _ ih =>
      obtain ⟨rfl, -⟩ := List.cons.inj hall
      exact .stay hd (ih hall)
  | pass h _ =>
      obtain ⟨rfl, rfl⟩ := List.cons.inj hall
      exact h

theorem collapse_all {same : List Place} (hsame : ∀ q ∈ same, q = p)
    (h : Along (p :: same ++ places) ds) : Along (p :: places) ds := by
  induction same with
  | nil => exact h
  | cons q same ih =>
      obtain ⟨rfl, hrest⟩ := List.forall_mem_cons.mp hsame
      exact ih hrest h.collapse

/-- All diagnostics at one place. -/
theorem single (p : Place) (problems : List Problem) :
    Along [p] (problems.map fun problem => ⟨p, problem⟩) := by
  induction problems with
  | nil => exact .nil _
  | cons problem problems ih => exact .stay rfl ih

theorem mem (h : Along places ds) : ∀ d ∈ ds, d.place ∈ places := by
  induction h with
  | nil => exact List.forall_mem_nil _
  | stay hd _ ih => exact List.forall_mem_cons.mpr ⟨hd ▸ List.mem_cons_self, ih⟩
  | pass _ ih => exact fun d hd => List.mem_cons_of_mem _ (ih d hd)

/-- Along places in order, diagnostics come in order. -/
theorem pairwise (h : Along places ds) (hplaces : places.Pairwise Place.NotBehind) :
    ds.Pairwise fun d e => d.place.NotBehind e.place := by
  induction h with
  | nil => exact .nil
  | @stay p places d ds hd hrest ih =>
      refine .cons (fun e he => ?_) (ih hplaces)
      rw [hd]
      obtain heq | hmem := List.mem_cons.mp (hrest.mem e he)
      · rw [heq]
        exact .refl p
      · exact (List.pairwise_cons.mp hplaces).1 _ hmem
  | pass _ ih => exact ih (List.pairwise_cons.mp hplaces).2

end Along

/-! ### From lines to diagnostics -/

theorem Comment.places_clear (inside : Bool) (lines : List Line) :
    ((clear inside lines).1.map Line.place).Sublist (lines.map Line.place) := by
  induction lines generalizing inside with
  | nil => exact .slnil
  | cons line lines ih =>
      rw [List.map_cons]
      simp only [clear]
      split
      · exact (ih _).cons _
      · split
        · exact (ih _).cons _
        · exact (ih _).cons_cons _

/-- The reports of a block go along its lines. -/
theorem Code.along_diagnostics (body : List Line) :
    Along (body.map Line.place) (diagnostics body) := by
  induction body with
  | nil => exact .nil _
  | cons line body ih => exact (Along.single line.place (lineProblems line)).append ih

namespace Item

/-- The places that an item keeps of its lines. -/
def bodyPlaces : Item → List Place
  | .code _ body => body.map Line.place
  | _ => []

/-- Where a block that is still open stands, line by line. -/
def Pending.places (p : Pending) : List Place :=
  p.place :: p.body.map Line.place

theorem place_of_formOf_item {place : Place} {text : List Char} {i : Item}
    (h : formOf place text = .item i) : ∀ q ∈ i.bodyPlaces, q = place := by
  -- a line that stands where it stands does not move
  have hmove := formOf_move (fun _ => place) place text
  rw [h] at hmove
  injection hmove with hitem
  cases i with
  | code condition body =>
      injection hitem with _ hbody
      rw [bodyPlaces, hbody, List.map_map]
      exact List.forall_mem_map.mpr fun _ _ => rfl
  | _ => exact List.forall_mem_nil _

theorem place_of_formOf_opensCode {place : Place} {text condition : List Char} {first : List Line}
    (h : formOf place text = .opensCode condition first) :
    ∀ q ∈ first.map Line.place, q = place := by
  have hmove := formOf_move (fun _ => place) place text
  rw [h] at hmove
  injection hmove with _ hfirst
  rw [hfirst, List.map_map]
  exact List.forall_mem_map.mpr fun _ _ => rfl

end Item

namespace Section

variable {reg : Registry}

/-- The reports of an item go from its own place along the lines of its code. -/
theorem along_item (reg : Registry) (isOpen : Bool) (place : Place) (i : Item) :
    Along (place :: i.bodyPlaces)
      ((itemProblems reg isOpen i).map (fun problem => ⟨place, problem⟩) ++
        bodyDiagnostics i) := by
  refine (Along.single place _).append ?_
  cases i with
  | code condition body => exact Code.along_diagnostics body
  | _ => exact .nil _

/-- However lines are gathered, what is reported of them goes along their places; behind an open
block, it also goes along the places of the lines that the block has taken. -/
theorem along_gather (isOpen : Bool) (pending : Option Item.Pending) (lines : List Line) :
    Along ((pending.map Item.Pending.places).getD [] ++ lines.map Line.place)
      (diagnosticsFrom reg isOpen (Item.gather pending lines)) := by
  induction lines generalizing isOpen pending with
  | nil =>
      cases pending with
      | none => exact .nil _
      | some p =>
          have hitem := along_item reg isOpen p.place (.openCode p.condition)
          refine (hitem.append (.nil [])).of_sublist ?_
          exact (List.nil_sublist _).cons_cons _
  | cons line lines ih =>
      cases pending with
      | some p =>
          rw [Item.gather]
          split
          · have hitem := along_item reg isOpen p.place (.code p.condition p.body)
            exact hitem.append (.pass (ih _ none))
          · have hpush := ih isOpen (some (p.push line))
            simpa [Item.Pending.places, Item.Pending.push] using hpush
      | none =>
          rw [Item.gather]
          cases hform : Item.formOf line.place line.text with
          | item i =>
              have hitem := along_item reg isOpen line.place i
              refine Along.collapse_all (Item.place_of_formOf_item hform) ?_
              exact hitem.append (ih _ none)
          | opensCode condition first =>
              refine Along.collapse_all (Item.place_of_formOf_opensCode hform) ?_
              exact ih isOpen (some ⟨line.place, condition, first⟩)

/-- Nothing is reported of a header with a key, and no element is open behind it. -/
theorem diagnosticsFrom_divide (isOpen : Bool) (items : List Located) :
    diagnosticsFrom reg isOpen items =
      diagnosticsFrom reg isOpen (divide items).1 ++
        (divide items).2.flatMap (diagnostics reg) := by
  induction items generalizing isOpen with
  | nil => rfl
  | cons i items ih =>
      obtain ⟨place, item⟩ := i
      rw [divide, diagnosticsFrom, ih]
      cases item with
      | header key =>
          cases key with
          | nil => simp only [diagnosticsFrom, List.append_assoc]
          | cons c key => rfl
      | _ => simp only [diagnosticsFrom, List.append_assoc]

end Section

/-! ### What is told behind all lines -/

namespace Code

theorem openComment_notMem_expression (source : String) :
    .openComment ∉ expressionProblems source := by
  unfold expressionProblems
  split <;> simp

theorem openComment_notMem_statement (s : Statement) : .openComment ∉ statementProblems s := by
  unfold statementProblems
  split
  · simp
  · simp [openComment_notMem_expression]

theorem openComment_notMem_piece (piece : List Char) : .openComment ∉ (readPiece piece).2 := by
  unfold readPiece
  split
  · simp
  · split
    · exact openComment_notMem_statement _
    · simp

theorem openComment_notMem_line (line : Line) : .openComment ∉ lineProblems line := by
  have hrest (rest : List Char) : .openComment ∉ restProblems rest := by
    unfold restProblems
    split <;> simp
  simp [lineProblems, openComment_notMem_piece, hrest]

end Code

namespace Section

variable {reg : Registry}

theorem openComment_notMem_condition (condition : List Char) :
    .openComment ∉ conditionProblems condition := by
  unfold conditionProblems
  split
  · simp
  · dsimp only
    split <;> simp

theorem openComment_notMem_choice (isOpen : Bool) (body : List Char) :
    .openComment ∉ choiceProblems isOpen body := by
  unfold choiceProblems readChoice
  grind

theorem openComment_notMem_item (isOpen : Bool) (i : Item) :
    .openComment ∉ itemProblems reg isOpen i := by
  cases i with
  | speaker name rest =>
      simp only [itemProblems, speakerProblems]
      split <;> simp
  | flags list =>
      simp only [itemProblems, flagProblems]
      grind
  | header key => cases key <;> simp [itemProblems]
  | redirect condition key =>
      cases key with
      | nil => simp [itemProblems]
      | cons c key => exact openComment_notMem_condition condition
  | code condition body => exact openComment_notMem_condition condition
  | openCode condition => simp [itemProblems, openComment_notMem_condition]
  | choice body => exact openComment_notMem_choice isOpen body
  | blank | text content => simp [itemProblems]

/-- No item is reported as an open comment. -/
theorem problem_ne_openComment (isOpen : Bool) (items : List Located) :
    ∀ d ∈ diagnosticsFrom reg isOpen items, d.problem ≠ .openComment := by
  induction items generalizing isOpen with
  | nil => exact List.forall_mem_nil _
  | cons i items ih =>
      refine List.forall_mem_append.mpr ⟨List.forall_mem_append.mpr ⟨?_, ?_⟩, ih _⟩
      · refine List.forall_mem_map.mpr fun problem hproblem heq => ?_
        cases heq
        exact openComment_notMem_item isOpen i.item hproblem
      · obtain ⟨place, item⟩ := i
        cases item with
        | code condition body =>
            intro d hd heq
            obtain ⟨line, -, hline⟩ := List.mem_flatMap.mp hd
            obtain ⟨problem, hproblem, rfl⟩ := List.mem_map.mp hline
            cases heq
            exact Code.openComment_notMem_line line hproblem
        | _ => exact List.forall_mem_nil _

end Section

/-! ### Whole scripts -/

/-- Behind the last character of a source, on its last line. -/
def Place.endOf (source : List Char) : Place :=
  ⟨source.count '\n' + 1, ⟨byteLength source, byteLength source⟩⟩

theorem Place.IsLineOf.notBehind_end {source : List Char} {p : Place} (h : p.IsLineOf source) :
    1 ≤ p.line ∧ p.NotBehind (endOf source) := by
  obtain ⟨before, text, after, rfl, -, -, -, rfl⟩ := h
  simp only [NotBehind, endOf, List.count_append, Text.byteLength_append]
  omega

namespace Script

variable {reg : Registry} {source : String} {script : Script}

/-- An accepted script has the reports of its items, and behind them that of a comment left open. -/
theorem diagnostics_of_parse (h : parse reg source = .ok script) :
    script.diagnostics = Section.diagnosticsFrom reg false (items source) ++
      endDiagnostics (Comment.clear false (Line.ofSource source.toList)).2 source.toList := by
  obtain ⟨rfl, -, -⟩ := eq_of_parse h
  rw [Section.diagnosticsFrom_divide]
  rfl

/-- The reports of a source go along its lines. -/
theorem along_items (reg : Registry) (source : String) :
    Along ((Line.ofSource source.toList).map Line.place)
      (Section.diagnosticsFrom reg false (items source)) :=
  (Section.along_gather false none _).of_sublist (Comment.places_clear false _)

theorem mem_endDiagnostics {inComment : Bool} {source : List Char} {d : Diagnostic}
    (h : d ∈ endDiagnostics inComment source) : d = ⟨Place.endOf source, .openComment⟩ := by
  unfold endDiagnostics at h
  split at h
  · rw [List.mem_singleton.mp h, Line.length_ofSource]
    rfl
  · exact absurd h List.not_mem_nil

/-- Every diagnostic of a script has the number of one of its lines and stands on just the bytes of
that line, but for a comment that is never closed: that one stands behind the last character, on
the last line. None has a smaller number than one before it, or begins at an earlier byte. -/
theorem diagnostics_in_order (h : parse reg source = .ok script) :
    (∀ d ∈ script.diagnostics,
      1 ≤ d.place.line ∧ d.place.line ≤ source.toList.count '\n' + 1) ∧
    (∀ d ∈ script.diagnostics, d.problem ≠ .openComment → d.place.IsLineOf source.toList) ∧
    (∀ d ∈ script.diagnostics, d.problem = .openComment →
      d.place = ⟨source.toList.count '\n' + 1, ⟨source.utf8ByteSize, source.utf8ByteSize⟩⟩) ∧
    script.diagnostics.Pairwise fun d e =>
      d.place.line ≤ e.place.line ∧ d.place.span.start ≤ e.place.span.start := by
  have halong := along_items reg source
  have hline : ∀ d ∈ Section.diagnosticsFrom reg false (items source),
      d.place.IsLineOf source.toList := by
    intro d hd
    obtain ⟨line, hmem, heq⟩ := List.mem_map.mp (halong.mem d hd)
    rw [← heq]
    exact Place.isLineOf_of_mem_ofSource _ line hmem
  rw [diagnostics_of_parse h]
  refine ⟨fun d hd => ?_, fun d hd hproblem => ?_, fun d hd hproblem => ?_, ?_⟩
  · obtain hitems | hend := List.mem_append.mp hd
    · obtain ⟨hfirst, hlast⟩ := (hline d hitems).notBehind_end
      exact ⟨hfirst, hlast.1⟩
    · rw [mem_endDiagnostics hend]
      exact ⟨Nat.le_add_left 1 _, Nat.le_refl _⟩
  · obtain hitems | hend := List.mem_append.mp hd
    · exact hline d hitems
    · rw [mem_endDiagnostics hend] at hproblem
      exact absurd rfl hproblem
  · obtain hitems | hend := List.mem_append.mp hd
    · exact absurd hproblem (Section.problem_ne_openComment false _ d hitems)
    · rw [mem_endDiagnostics hend, ← Text.byteLength_toList]
      rfl
  · have hitems := halong.pairwise (Place.notBehind_number 1 0 _)
    refine List.pairwise_append.mpr ⟨hitems, ?_, fun d hd e he => ?_⟩
    · unfold endDiagnostics
      split
      · exact List.pairwise_singleton _ _
      · exact .nil
    · rw [mem_endDiagnostics he]
      exact (hline d hd).notBehind_end.2

/-- A block of code with a mistake in its second line, which is told when the block closes, a choice
behind it, and a comment left open behind characters of several bytes. -/
def scrawl : String :=
  "# café\n[Bob]: hi\n\n=>\x7b x =;\n é;\n\x7d\n* élan\n/* é"

theorem scrawl_diagnostics_in_order :
    ∃ script, parse Registry.implicitly scrawl = .ok script ∧
      script.diagnostics.map Diagnostic.place =
        [⟨4, ⟨19, 27⟩⟩, ⟨5, ⟨28, 32⟩⟩, ⟨7, ⟨35, 42⟩⟩, ⟨8, ⟨48, 48⟩⟩] ∧
      (∀ d ∈ script.diagnostics, 1 ≤ d.place.line ∧ d.place.line ≤ 8) ∧
      script.diagnostics.Pairwise fun d e =>
        d.place.line ≤ e.place.line ∧ d.place.span.start ≤ e.place.span.start := by
  obtain ⟨script, hparse⟩ : ∃ script, parse Registry.implicitly scrawl = .ok script := ⟨_, rfl⟩
  obtain ⟨hlines, -, -, hordered⟩ := diagnostics_in_order hparse
  refine ⟨script, hparse, ?_, hlines, hordered⟩
  cases hparse
  rfl

end Script

end Parley
