import Parley.Proofs.Script.Refusal
import Parley.Proofs.Script.Remarks

/-!
# A code block put into a dialogue

Lines that are read to a block of code may be put in between the lines of any dialogue. The dialogue
gets one exit more, between those above and those below; what is wrong with the block is reported
between what is reported above and below; and nothing else changes, elements that the block stands
in the middle of included.
-/

namespace Parley

open Text (splitOn)

/-! ### Items put in between -/

namespace Section

variable {reg : Registry}

/-- Items without a header that has a key belong to no section, whatever stands below them. -/
theorem divide_append_of_nil {items : List Located} (h : (divide items).2 = [])
    (more : List Located) :
    divide (items ++ more) = ((divide items).1 ++ (divide more).1, (divide more).2) := by
  induction items with
  | nil => rfl
  | cons i items ih =>
      obtain ⟨place, item⟩ := i
      rw [divide] at h
      rw [List.cons_append, divide, divide]
      cases item with
      | header key =>
          cases key with
          | nil => rw [ih h]; rfl
          | cons c key => cases h
      | _ => rw [ih h]; rfl

/-- Items behind others belong to their last section up to the next header. -/
theorem divide_append_of_concat {items : List Located} {earlier : List Section} {s : Section}
    (h : (divide items).2 = earlier ++ [s]) (more : List Located) :
    divide (items ++ more) =
      ((divide items).1, earlier ++ s.pad (divide more).1 :: (divide more).2) := by
  induction items generalizing earlier with
  | nil => simp [divide] at h
  | cons i items ih =>
      obtain ⟨place, item⟩ := i
      rw [divide] at h
      rw [List.cons_append, divide, divide]
      cases item with
      | header key =>
          cases key with
          | nil => rw [ih h]
          | cons c key =>
              cases earlier with
              | nil =>
                  obtain ⟨rfl, hnil⟩ := List.cons.inj h
                  rw [divide_append_of_nil hnil]
                  rfl
              | cons first earlier =>
                  obtain ⟨rfl, hrest⟩ := List.cons.inj h
                  rw [ih hrest]
                  rfl
      | _ => rw [ih h]

theorem divide_ne_nil {items : List Located} (h : ∃ i ∈ items, i.item.key?.isSome) :
    (divide items).2 ≠ [] := by
  obtain ⟨i, hi, hkey⟩ := h
  intro hnil
  have hnone := map_heading_divide items
  rw [hnil, List.map_nil, eq_comm, List.filterMap_eq_nil_iff] at hnone
  have hi' := hnone i hi
  rw [Located.heading?, Option.map_eq_none_iff] at hi'
  simp [hi'] at hkey

section Code

variable (condition : List Char) (body : List Line) (place : Place)

/-- The exit that a block of code is read to. -/
def codeExit : Exit :=
  ⟨String.ofList condition, .code (Code.statements body)⟩

/-- A block of code in the middle of an element does not close it. -/
theorem elementsFrom_insert (speaker : Option Speaker) (draft : Option Draft)
    (items below : List Item) :
    elementsFrom reg speaker draft (items ++ .code condition body :: below) =
      elementsFrom reg speaker draft (items ++ below) := by
  induction items generalizing speaker draft with
  | nil => rfl
  | cons i items ih => cases i <;> simp only [List.cons_append, elementsFrom, ih]

/-- Items put behind a section add their exits behind those of the section. -/
theorem exits_pad (s : Section) (below : List Located) :
    (dialogue reg (s.pad below)).exits =
      (dialogue reg s).exits ++ (below.map Located.item).filterMap itemExit := by
  simp only [dialogue, pad, List.map_append, List.filterMap_append]

/-- A block of code adds its own exit where it stands, and nothing else. -/
theorem dialogue_insert (s : Section) (below : List Located) :
    dialogue reg (s.pad (⟨place, .code condition body⟩ :: below)) =
      { dialogue reg (s.pad below) with
        exits := (dialogue reg s).exits ++
          codeExit condition body :: (below.map Located.item).filterMap itemExit } := by
  have hflags : itemFlags (.code condition body) = {} := rfl
  have hexit : itemExit (.code condition body) = some (codeExit condition body) := rfl
  simp only [dialogue, pad, List.map_append, List.map_cons, List.foldl_append, List.foldl_cons,
    List.filterMap_append, List.filterMap_cons, elementsFrom_insert, hflags, hexit, union_empty]

/-- Of a block of code only its condition and its lines are reported. -/
theorem diagnosticsFrom_code (isOpen : Bool) (below : List Located) :
    diagnosticsFrom reg isOpen (⟨place, .code condition body⟩ :: below) =
      ((conditionProblems condition).map (fun problem => ⟨place, problem⟩) ++
        Code.diagnostics body) ++ diagnosticsFrom reg isOpen below :=
  rfl

end Code

section Move

variable (f : Place → Place) (items : List Located)

theorem pad_move (s : Section) :
    (s.move f).pad (items.map (Located.move f)) = (s.pad items).move f := by
  simp only [pad, move, List.map_append]

theorem exits_move :
    ((items.map (Located.move f)).map Located.item).filterMap itemExit =
      (items.map Located.item).filterMap itemExit := by
  rw [List.map_map, List.filterMap_map, List.filterMap_map]
  exact List.filterMap_congr fun i _ => itemExit_move f i.item

theorem foldl_opens_move (isOpen : Bool) :
    ((items.map (Located.move f)).map Located.item).foldl opens isOpen =
      (items.map Located.item).foldl opens isOpen := by
  rw [List.map_map, List.foldl_map, List.foldl_map]
  exact congrArg (fun g => items.foldl g isOpen) <|
    funext fun b => funext fun i => opens_move f b i.item

end Move

/-- Neither the key of a section nor its place depends on what stands in it. -/
theorem repeated?_pad (seen : List (List Char)) (earlier later : List Section) (s : Section)
    (items : List Located) :
    repeated? seen (earlier ++ s.pad items :: later) = repeated? seen (earlier ++ s :: later) := by
  induction earlier generalizing seen with
  | nil => rfl
  | cons first earlier ih => rw [List.cons_append, List.cons_append, repeated?, repeated?, ih]

end Section

/-! ### Lines put in between -/

/-- Lines read by themselves are read alike wherever they stand. -/
theorem ReadAs.numbered {texts : List (List Char)} {items : List Item} (h : ReadAs texts items)
    (line start : Nat) :
    (Comment.clear false (Line.number line start texts)).2 = false ∧
      (Item.gather none (Comment.clear false (Line.number line start texts)).1).map
        (Located.move fun _ => Place.nowhere) = items.map Located.bare := by
  have hclear := Comment.clear_move (fun _ => Place.nowhere) false (Line.number line start texts)
  have hgather := Item.gather_move (fun _ => Place.nowhere) none
    (Comment.clear false (Line.number line start texts)).1
  have hgathered := h.gathered []
  rw [List.append_nil, Item.gather, List.append_nil] at hgathered
  rw [Line.number_bare, Comment.clear_of_absent h.absent, Prod.mk.injEq] at hclear
  refine ⟨hclear.2.symm, ?_⟩
  rw [← hgather, ← hclear.1, Option.map_none, hgathered]

theorem Item.isCutOff_move (f : Place → Place) (item : Item) :
    (item.move f).isCutOff = item.isCutOff := by
  cases item <;> rfl

namespace Script

/-- What stands on the first lines of a source, and what stands on the others. -/
def itemsAbove (count : Nat) (source : String) : List Located :=
  Item.gather none (Comment.clear false ((Line.ofSource source.toList).take count)).1

/-- The items of the lines behind the first ones. -/
def itemsBelow (count : Nat) (source : String) : List Located :=
  Item.gather none (Comment.clear false ((Line.ofSource source.toList).drop count)).1

/-- Behind the first lines of a source a dialogue has begun, and neither a comment nor a block of
code is open. -/
structure InDialogue (count : Nat) (source : String) : Prop where
  comment : inComment count source = false
  code : ∀ i ∈ itemsAbove count source, i.item.isCutOff = false
  header : ∃ i ∈ itemsAbove count source, i.item.key?.isSome

variable {count : Nat} {source text : String} {condition : List Char} {body : List Line}

/-- A source that is divided inside a dialogue has the items above and then those below. -/
theorem items_eq_append (h : InDialogue count source) :
    items source = itemsAbove count source ++ itemsBelow count source := by
  conv_lhs => rw [items, ← List.take_append_drop count (Line.ofSource source.toList)]
  have hcomment : (Comment.clear false ((Line.ofSource source.toList).take count)).2 = false :=
    h.comment
  rw [Comment.clear_append, hcomment, Item.gather_append none _ _ h.code]
  rfl

/-- Lines put in leave open no comment that was not open before. -/
theorem clear_insertLines_snd (h : InDialogue count source)
    {items : List Item} (htext : ReadAs (splitOn '\n' text.toList) items) :
    (Comment.clear false (Line.ofSource (insertLines count text source).toList)).2 =
      (Comment.clear false (Line.ofSource source.toList)).2 := by
  obtain ⟨line, start, hlines⟩ := ofSource_insertLines count text source
  have hcomment : (Comment.clear false ((Line.ofSource source.toList).take count)).2 = false :=
    h.comment
  conv_rhs => rw [← List.take_append_drop count (Line.ofSource source.toList),
    Comment.clear_append, hcomment]
  rw [hlines, ← List.map_take, ← List.map_drop, Comment.clear_append, Comment.clear_append,
    Comment.clear_move, hcomment, (htext.numbered line start).1, Comment.clear_move]

/-- The items above and below are those of the source, moved. -/
theorem items_insertLines (h : InDialogue count source)
    (htext : ReadAs (splitOn '\n' text.toList) [.code condition body]) :
    ∃ place lines, lines.map (Line.move fun _ => Place.nowhere) = body ∧
      items (insertLines count text source) =
        (itemsAbove count source).map (Located.move (Place.behind count text.toList)) ++
          ⟨place, .code condition lines⟩ ::
            (itemsBelow count source).map (Located.move (Place.behind count text.toList)) := by
  obtain ⟨line, start, hlines⟩ := ofSource_insertLines count text source
  obtain ⟨hclosed, hitems⟩ := htext.numbered line start
  obtain ⟨⟨place, item⟩, rest, hgather, hitem, hnil⟩ := List.map_eq_cons_iff.mp hitems
  rw [List.map_nil, List.map_eq_nil_iff] at hnil
  obtain ⟨lines, rfl, hbody⟩ : ∃ lines, item = .code condition lines ∧
      lines.map (Line.move fun _ => Place.nowhere) = body := by
    have hmoved : item.move (fun _ => Place.nowhere) = .code condition body :=
      congrArg Located.item hitem
    cases item with
    | code c lines =>
        obtain ⟨rfl, hbody⟩ := Item.code.inj hmoved
        exact ⟨lines, rfl, hbody⟩
    | _ => cases hmoved
  have hcomment : (Comment.clear false ((Line.ofSource source.toList).take count)).2 = false :=
    h.comment
  have hmove := fun lines => Item.gather_move (Place.behind count text.toList) none lines
  simp only [Option.map_none] at hmove
  refine ⟨place, lines, hbody, ?_⟩
  rw [items, hlines, ← List.map_take, ← List.map_drop, List.append_assoc, Comment.clear_append,
    Comment.clear_append, Comment.clear_move, Comment.clear_move, hcomment, hclosed,
    Item.gather_append none _ _ ?_, Item.gather_append none _ _ ?_, hgather, hnil, hmove, hmove]
  · rfl
  · rw [hgather, hnil]
    exact List.forall_mem_singleton.mpr rfl
  · rw [hmove]
    exact List.forall_mem_map.mpr fun i hi => (Item.isCutOff_move _ i.item).trans (h.code i hi)

/-! ### Scripts with a gap -/

/-- A script with a gap between two of its lines, inside a dialogue. -/
structure Gap where
  /-- The dialogues that end above. -/
  earlier : List Dialogue
  /-- The dialogue that the gap is in; its exits are those above and those below. -/
  dialogue : Dialogue
  exitsAbove : List Exit
  exitsBelow : List Exit
  later : List Dialogue
  reportsAbove : List Diagnostic
  reportsBelow : List Diagnostic

namespace Gap

/-- The script as it is without anything in the gap. -/
def closed (g : Gap) : Script where
  dialogues :=
    g.earlier ++ { g.dialogue with exits := g.exitsAbove ++ g.exitsBelow } :: g.later
  diagnostics := g.reportsAbove ++ g.reportsBelow

/-- The script with an exit put in and what is reported of it, all else at the places where it then
stands. -/
def filled (g : Gap) (f : Place → Place) (e : Exit) (reports : List Diagnostic) : Script where
  dialogues :=
    g.earlier ++ { g.dialogue with exits := g.exitsAbove ++ e :: g.exitsBelow } :: g.later
  diagnostics := g.reportsAbove.map (Diagnostic.move f) ++ reports ++
    g.reportsBelow.map (Diagnostic.move f)

/-- The dialogues, the exits and the reports above are those of the first lines. -/
structure Behind (g : Gap) (reg : Registry) (count : Nat) (source : String) : Prop where
  dialogues : ∃ begun : Dialogue, begun.name = g.dialogue.name ∧ begun.exits = g.exitsAbove ∧
    (Section.divide (itemsAbove count source)).2.map (Section.dialogue reg) =
      g.earlier ++ [begun]
  reports : g.reportsAbove =
    Section.diagnosticsFrom reg false (Section.divide (itemsAbove count source)).1 ++
      (Section.divide (itemsAbove count source)).2.flatMap (Section.diagnostics reg)

end Gap

/-- The gap behind the first lines of a source, where `s` is the last section of these. -/
def gapBehind (reg : Registry) (count : Nat) (source : String) (earlier : List Section)
    (s : Section) : Gap where
  earlier := earlier.map (Section.dialogue reg)
  dialogue := Section.dialogue reg (s.pad (Section.divide (itemsBelow count source)).1)
  exitsAbove := (Section.dialogue reg s).exits
  exitsBelow := ((Section.divide (itemsBelow count source)).1.map Located.item).filterMap
    Section.itemExit
  later := (Section.divide (itemsBelow count source)).2.map (Section.dialogue reg)
  reportsAbove :=
    Section.diagnosticsFrom reg false (Section.divide (itemsAbove count source)).1 ++
      (earlier ++ [s]).flatMap (Section.diagnostics reg)
  reportsBelow :=
    Section.diagnosticsFrom reg ((s.items.map Located.item).foldl Section.opens false)
        (Section.divide (itemsBelow count source)).1 ++
      (Section.divide (itemsBelow count source)).2.flatMap (Section.diagnostics reg) ++
      endDiagnostics (Comment.clear false (Line.ofSource source.toList)).2 source.toList

section Reading

variable {reg : Registry} {earlier : List Section} {s : Section}

/-- The gap is behind the lines it was made for. -/
theorem behind_gapBehind (hs : (Section.divide (itemsAbove count source)).2 = earlier ++ [s]) :
    (gapBehind reg count source earlier s).Behind reg count source := by
  constructor
  · refine ⟨Section.dialogue reg s, rfl, rfl, ?_⟩
    rw [hs, List.map_append]
    rfl
  · rw [hs]
    rfl

theorem partsOf_gap (h : InDialogue count source)
    (hs : (Section.divide (itemsAbove count source)).2 = earlier ++ [s]) :
    partsOf (Line.ofSource source.toList) =
      ((Section.divide (itemsAbove count source)).1,
        earlier ++ s.pad (Section.divide (itemsBelow count source)).1 ::
          (Section.divide (itemsBelow count source)).2) := by
  have hitems := items_eq_append h
  rw [items] at hitems
  rw [partsOf, hitems, Section.divide_append_of_concat hs]

/-- A source that is divided inside a dialogue is read to a script with a gap there. -/
theorem reading_gap (h : InDialogue count source)
    (hs : (Section.divide (itemsAbove count source)).2 = earlier ++ [s]) :
    reading reg source = (gapBehind reg count source earlier s).closed := by
  simp only [reading, partsOf_gap h hs, Gap.closed, gapBehind, Script.mk.injEq]
  constructor
  · rw [List.map_append, List.map_cons, ← Section.exits_pad]
  · simp only [List.flatMap_append, List.flatMap_cons, List.flatMap_nil, List.append_nil,
      Section.diagnostics, Section.pad, Section.diagnosticsFrom_append, List.append_assoc]

theorem partsOf_filled {place : Place} {lines : List Line} {f : Place → Place} {filled : String}
    (hs : (Section.divide (itemsAbove count source)).2 = earlier ++ [s])
    (hitems : items filled = (itemsAbove count source).map (Located.move f) ++
      ⟨place, .code condition lines⟩ :: (itemsBelow count source).map (Located.move f)) :
    partsOf (Line.ofSource filled.toList) =
      ((Section.divide (itemsAbove count source)).1.map (Located.move f),
        earlier.map (Section.move f) ++
          (s.move f).pad (⟨place, .code condition lines⟩ ::
            (Section.divide (itemsBelow count source)).1.map (Located.move f)) ::
          (Section.divide (itemsBelow count source)).2.map (Section.move f)) := by
  have habove : (Section.divide ((itemsAbove count source).map (Located.move f))).2 =
      earlier.map (Section.move f) ++ [s.move f] := by
    rw [Section.divide_move, hs, List.map_append]
    rfl
  rw [items] at hitems
  rw [partsOf, hitems, Section.divide_append_of_concat habove, Section.divide,
    Section.divide_move, Section.divide_move]

/-- With the lines of a block put in, the same script is read with the gap filled. -/
theorem reading_filled (reg : Registry) (h : InDialogue count source)
    (hs : (Section.divide (itemsAbove count source)).2 = earlier ++ [s])
    (htext : ReadAs (splitOn '\n' text.toList) [.code condition body]) :
    ∃ reports, reports.map Diagnostic.problem = Section.conditionProblems condition ++
        (Code.diagnostics body).map Diagnostic.problem ∧
      reading reg (insertLines count text source) =
        (gapBehind reg count source earlier s).filled (Place.behind count text.toList)
          (Section.codeExit condition body) reports := by
  obtain ⟨place, lines, rfl, hitems⟩ := items_insertLines h htext
  have hexit : Section.codeExit condition (lines.map (Line.move fun _ => Place.nowhere)) =
      Section.codeExit condition lines := by
    rw [Section.codeExit, Section.statements_move]
    rfl
  have hproblems : (Code.diagnostics (lines.map (Line.move fun _ => Place.nowhere))).map
      Diagnostic.problem = (Code.diagnostics lines).map Diagnostic.problem := by
    have hmove := Section.bodyDiagnostics_move (fun _ => Place.nowhere) (.code [] lines)
    change Code.diagnostics _ = _ at hmove
    rw [hmove, List.map_map]
    rfl
  have hdialogue : ∀ t : Section, Section.dialogue reg (t.move (Place.behind count text.toList)) =
      Section.dialogue reg t := Section.dialogue_move _ reg
  refine ⟨(Section.conditionProblems condition).map (fun problem => ⟨place, problem⟩) ++
    Code.diagnostics lines, ?_, ?_⟩
  · rw [hproblems, List.map_append, List.map_map]
    exact congrArg (· ++ _) (List.map_id _)
  · simp only [reading, partsOf_filled hs hitems, clear_insertLines_snd h htext,
      endDiagnostics_insertLines h.comment, Gap.filled, gapBehind, hexit, Script.mk.injEq]
    constructor
    · rw [List.map_append, List.map_cons, Section.dialogue_insert, Section.exits_move,
        Section.pad_move, hdialogue, hdialogue, List.map_map, List.map_map]
      simp only [Function.comp_def, hdialogue]
    · simp only [List.flatMap_append, List.flatMap_cons, List.flatMap_nil, List.append_nil,
        Section.diagnostics, Section.pad, Section.diagnosticsFrom_append,
        Section.diagnosticsFrom_code, Section.move, Section.foldl_opens_move,
        Section.diagnosticsFrom_move, List.map_append, List.map_flatMap, List.flatMap_map,
        List.append_assoc]

/-- What refuses a source refuses it with a block of code in it. -/
theorem refusals_filled (h : InDialogue count source)
    (hs : (Section.divide (itemsAbove count source)).2 = earlier ++ [s])
    (htext : ReadAs (splitOn '\n' text.toList) [.code condition body]) :
    Section.orphan? none (partsOf (Line.ofSource (insertLines count text source).toList)).1 =
        (Section.orphan? none (partsOf (Line.ofSource source.toList)).1).map
          (ScriptError.move (Place.lineBehind count text.toList)) ∧
      Section.repeated? [] (partsOf (Line.ofSource (insertLines count text source).toList)).2 =
        (Section.repeated? [] (partsOf (Line.ofSource source.toList)).2).map
          (ScriptError.move (Place.lineBehind count text.toList)) := by
  obtain ⟨place, lines, -, hitems⟩ := items_insertLines h htext
  have hline := Place.line_behind count text.toList
  rw [partsOf_filled hs hitems, partsOf_gap h hs]
  constructor
  · exact Section.orphan?_move hline none _
  · rw [Section.repeated?_pad, Section.repeated?_pad, ← Section.repeated?_move hline,
      List.map_append, List.map_cons]

end Reading

/-- A line inside a dialogue stands below a header with a key. -/
theorem exists_sections_above (h : InDialogue count source) :
    ∃ earlier s, (Section.divide (itemsAbove count source)).2 = earlier ++ [s] := by
  obtain hnil | ⟨earlier, s, hs⟩ :=
    List.eq_nil_or_concat (Section.divide (itemsAbove count source)).2
  · exact absurd hnil (Section.divide_ne_nil h.header)
  · exact ⟨earlier, s, by rw [hs, List.concat_eq_append]⟩

/-- A block of code in a dialogue of a source that is accepted: it adds its exit, and what is wrong
with it is reported at the place where it stands. -/
theorem parse_insertCode {reg : Registry} {script : Script} (h : InDialogue count source)
    (hparse : parse reg source = .ok script) :
    ∃ g : Gap, g.Behind reg count source ∧ g.closed = script ∧
      ∀ text condition body, ReadAs (splitOn '\n' text.toList) [.code condition body] →
        ∃ reports, reports.map Diagnostic.problem = Section.conditionProblems condition ++
            (Code.diagnostics body).map Diagnostic.problem ∧
          parse reg (insertLines count text source) = .ok
            (g.filled (Place.behind count text.toList) (Section.codeExit condition body)
              reports) := by
  obtain ⟨rfl, horphan, hrepeated⟩ := eq_of_parse hparse
  obtain ⟨earlier, s, hs⟩ := exists_sections_above h
  refine ⟨gapBehind reg count source earlier s, behind_gapBehind hs, (reading_gap h hs).symm,
    fun text condition body htext => ?_⟩
  obtain ⟨reports, hreports, hreading⟩ := reading_filled reg h hs htext
  obtain ⟨horphan', hrepeated'⟩ := refusals_filled h hs htext
  refine ⟨reports, hreports, ?_⟩
  rw [← hreading]
  apply parse_eq_ok
  · rw [horphan', horphan]
    rfl
  · rw [hrepeated', hrepeated]
    rfl

/-- A script that is refused is refused for the same reason, at the line it then has. -/
theorem parse_insertCode_error {reg : Registry} {error : ScriptError} (h : InDialogue count source)
    (hparse : parse reg source = .error error)
    (htext : ReadAs (splitOn '\n' text.toList) [.code condition body]) :
    parse reg (insertLines count text source) =
      .error (error.move (Place.lineBehind count text.toList)) := by
  obtain ⟨earlier, s, hs⟩ := exists_sections_above h
  obtain ⟨horphan, hrepeated⟩ := refusals_filled h hs htext
  rw [parse_eq_error_iff, ← partsOf_fst] at hparse ⊢
  rw [horphan, hrepeated]
  obtain herror | ⟨hnone, herror⟩ := hparse
  · exact .inl (by rw [herror]; rfl)
  · exact .inr ⟨by rw [hnone]; rfl, by rw [herror]; rfl⟩

end Script

end Parley
