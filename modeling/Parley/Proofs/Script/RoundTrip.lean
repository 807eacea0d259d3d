import Parley.Proofs.Script.Items
import Parley.Proofs.Script.Sections

/-!
# A written graph reads back

Reading a written graph gives the graph, and reports of it no more than the expressions in it
that cannot be parsed.
-/

namespace Parley

open Text (trim allBlank joinWith Trimmed breakOn?)
open Section (elementsFrom diagnosticsFrom itemProblems bodyDiagnostics opens)

variable {reg : Registry}

/-! ### Choices and exits -/

namespace Choice

/-- A choice that can be written is read back from what stands behind its star. -/
theorem readChoice_body {c : Choice} (h : c.Writable) : Section.readChoice c.body = .ok c := by
  have harrowless : ¬ ['-', '>'] <:+: ' ' :: (c.text.toList ++ [' ']) := by
    rw [Text.pair_infix_cons (by decide), Text.pair_infix_append_cons (by decide) (by decide),
      not_or]
    exact ⟨h.arrowless, by decide⟩
  have hbreak := Text.breakOn?_pair (by decide) harrowless (' ' :: c.key.toList)
  have htext : trim (' ' :: (c.text.toList ++ [' '])) = c.text.toList := by
    rw [Text.trim_space_cons, Text.trim_append_space, Text.trim_eq_self h.text.trimmed]
  have hkey : trim (' ' :: c.key.toList) = c.key.toList := by
    rw [Text.trim_space_cons, Text.trim_eq_self h.key.trimmed]
  rw [List.cons_append, List.append_assoc, List.singleton_append] at hbreak
  rw [Section.readChoice, body, hbreak]
  simp [htext, hkey, h.text.ne_nil, h.key.ne_nil]

end Choice

namespace Exit

/-- What is reported of an exit: its expressions that cannot be parsed. -/
def problems (e : Exit) : List Problem :=
  Section.conditionProblems e.condition.toList ++
    match e.target with
    | .key _ => []
    | .code statements => statements.flatMap Code.statementProblems

variable {e : Exit}

/-- The statements of a block are read back, and reported as they are by themselves. -/
theorem body_written {statements : List Statement} (h : ∀ s ∈ statements, s.Writable) :
    Code.statements (statements.map fun s => Line.bare (s.write ++ [';'])) = statements ∧
      (Code.diagnostics (statements.map fun s => Line.bare (s.write ++ [';']))).map
        Diagnostic.problem = statements.flatMap Code.statementProblems := by
  refine Code.statements_written (fun s hs => ⟨(h s hs).wellFormed, (h s hs).bounded⟩) ?_
  rw [List.map_map]
  rfl

/-- An exit that can be written is read back from its item. -/
theorem itemExit_item (h : e.Writable) : Section.itemExit e.item = some e := by
  obtain ⟨condition, target⟩ := e
  have htarget := h.target
  cases target with
  | key key =>
      obtain ⟨c, cs, hkey⟩ := List.exists_cons_of_ne_nil htarget.1.ne_nil
      simp only [item, hkey, Section.itemExit, String.ofList_toList]
      rw [← hkey, String.ofList_toList]
  | code statements =>
      simp only [item, Section.itemExit, (body_written htarget).1, String.ofList_toList]

theorem problems_item (reg : Registry) (h : e.Writable) (isOpen : Bool) :
    itemProblems reg isOpen e.item ++ (bodyDiagnostics e.item).map Diagnostic.problem =
      e.problems := by
  obtain ⟨condition, target⟩ := e
  have htarget := h.target
  cases target with
  | key key =>
      obtain ⟨c, cs, hkey⟩ := List.exists_cons_of_ne_nil htarget.1.ne_nil
      simp only [item, hkey, itemProblems, bodyDiagnostics, problems]
      rfl
  | code statements =>
      simp only [item, itemProblems, bodyDiagnostics, problems, (body_written htarget).2]

theorem isOpen_item (e : Exit) (isOpen : Bool) : opens isOpen e.item = isOpen := by
  unfold item
  cases e.target <;> rfl

end Exit

/-! ### Elements -/

namespace Element

variable {e : Element}

theorem isShown_of_mem_items (speaking : Bool) {i : Item} (hi : i ∈ e.items speaking) :
    i.isShown = true := by
  have hopening : (e.openingItem speaking).isShown = true := by
    unfold openingItem
    cases e.speaker with
    | some s => rfl
    | none => dsimp only; split <;> rfl
  simp only [items, List.cons_append, List.mem_cons, List.mem_append, List.mem_map,
    List.not_mem_nil, or_false] at hi
  rcases hi with rfl | (⟨line, -, rfl⟩ | ⟨c, -, rfl⟩) | rfl
  · exact hopening
  · rfl
  · rfl
  · rfl

/-- Whatever stands in front of the first line, it opens an element of the right speaker, and
that speaker is the current one from there on. -/
theorem elementsFrom_opening (h : e.Tellable reg) {speaker : Option Speaker}
    (hopen : e.Opens reg speaker.isSome) (below : List Item) :
    elementsFrom reg speaker none (e.openingItem speaker.isSome :: below) =
      elementsFrom reg e.speaker (some (Section.openDraft e.speaker e.firstLine)) below := by
  unfold openingItem
  cases hspeaker : e.speaker with
  | some s =>
      simp only [elementsFrom, String.ofList_toList, (h.speaker s hspeaker).resolved]
      rfl
  | none =>
      by_cases htag : (speaker.isSome || allBlank e.firstLine) = true
      · have hname := hopen hspeaker
        rw [if_pos htag] at hname
        simp only [htag, if_true, elementsFrom, show String.ofList [] = "" from rfl, hname]
        rfl
      · rw [Bool.not_eq_true, Bool.or_eq_false_iff, Option.isSome_eq_false_iff,
          Option.isNone_iff_eq_none] at htag
        obtain ⟨rfl, hvisible⟩ := htag
        have hne : e.firstLine ≠ [] := by
          intro hnil
          rw [hnil] at hvisible
          exact absurd hvisible (by decide)
        simp [hvisible, elementsFrom, Section.withText, Section.openDraft, hne]

/-- The text of an element is that of its lines, with the first one left out where it is empty. -/
theorem joinWith_lines (h : e.Tellable reg) :
    joinWith ['\n'] ((if e.firstLine.isEmpty then [] else [e.firstLine]) ++ e.restLines) =
      e.text.toList := by
  by_cases htext : e.text = ""
  · obtain ⟨hfirst, hrest⟩ := restLines_of_text_eq_nil htext
    rw [hfirst, hrest, htext]
    rfl
  · have hvisible := (h.lines htext e.firstLine (by simp [textLines_eq])).1
    have hne : e.firstLine ≠ [] := by
      intro hnil
      rw [hnil] at hvisible
      exact absurd hvisible (by decide)
    have hlines : e.firstLine :: e.restLines = Text.splitOn '\n' e.text.toList :=
      e.textLines_eq.symm
    rw [if_neg (by simpa using hne), List.singleton_append, hlines, Text.joinWith_splitOn]

/-- The items of an element are read back to it, and its speaker is in force behind it. -/
theorem elementsFrom_items (h : e.Tellable reg) {speaker : Option Speaker}
    (hopen : e.Opens reg speaker.isSome) (below : List Item) :
    elementsFrom reg speaker none (e.items speaker.isSome ++ below) =
      e :: elementsFrom reg e.speaker none below := by
  have hchoices : ∀ c ∈ e.choices, Section.readChoice c.body = .ok c := fun c hc =>
    Choice.readChoice_body (h.choices c hc)
  have helement : (⟨e.speaker, (if e.firstLine.isEmpty then [] else [e.firstLine]) ++ e.restLines,
      e.choices⟩ : Section.Draft).element = e := by
    rw [Section.Draft.element, joinWith_lines h, String.ofList_toList]
  have hmap : e.choices.map Choice.item = e.choices.map fun c => Item.choice c.body := rfl
  rw [items, List.append_assoc, List.append_assoc, List.cons_append, elementsFrom_opening h hopen,
    Section.elementsFrom_texts, hmap, Section.elementsFrom_choices hchoices]
  simp only [Section.openDraft, List.nil_append, List.map_id', List.cons_append, elementsFrom,
    Option.map_some, Option.toList_some, helement]

theorem problems_opening (h : e.Tellable reg) (speaking isOpen : Bool) :
    itemProblems reg isOpen (e.openingItem speaking) = [] ∧
      bodyDiagnostics (e.openingItem speaking) = [] ∧
      opens isOpen (e.openingItem speaking) = true := by
  unfold openingItem
  cases hspeaker : e.speaker with
  | some s =>
      refine ⟨?_, rfl, rfl⟩
      simp [itemProblems, Section.speakerProblems, (h.speaker s hspeaker).resolved]
  | none =>
      by_cases htag : (speaking || allBlank e.firstLine) = true
      · simp only [htag, if_true]
        refine ⟨?_, rfl, rfl⟩
        simp [itemProblems, Section.speakerProblems, allBlank]
      · simp only [htag]
        exact ⟨rfl, rfl, rfl⟩

theorem isQuiet_text (line : List Char) : Section.IsQuiet reg true (.text line) :=
  ⟨rfl, rfl, rfl⟩

theorem isQuiet_choice {c : Choice} (h : c.Writable) : Section.IsQuiet reg true c.item := by
  refine ⟨?_, rfl, rfl⟩
  simp [Choice.item, itemProblems, Section.choiceProblems, Choice.readChoice_body h]

/-- Nothing is reported of an element that was written. -/
theorem diagnosticsFrom_items (h : e.Tellable reg) (speaking isOpen : Bool)
    (below : List Located) :
    diagnosticsFrom reg isOpen ((e.items speaking).map Located.bare ++ below) =
      diagnosticsFrom reg false below := by
  obtain ⟨hproblems, hbody, hopens⟩ := problems_opening h speaking isOpen
  have hmiddle : ∀ i ∈ (e.restLines.map Item.text ++ e.choices.map Choice.item).map Located.bare,
      Section.IsQuiet reg true i.item := by
    intro i hi
    obtain ⟨item, hitem, rfl⟩ := List.mem_map.mp hi
    rcases List.mem_append.mp hitem with htext | hchoice
    · obtain ⟨line, -, rfl⟩ := List.mem_map.mp htext
      exact isQuiet_text line
    · obtain ⟨c, hc, rfl⟩ := List.mem_map.mp hchoice
      exact isQuiet_choice (h.choices c hc)
  rw [items, List.cons_append, List.cons_append, List.map_cons, List.cons_append, diagnosticsFrom,
    List.map_append, List.append_assoc]
  simp only [Located.bare, hproblems, hbody, hopens, List.map_nil, List.nil_append]
  rw [List.append_assoc]
  exact Section.diagnosticsFrom_quiet hmiddle _

end Element

/-! ### Dialogues -/

namespace Dialogue

variable {d : Dialogue}

theorem foldl_flagItems (f : Flags) :
    ((flagItems f).map Section.itemFlags).foldl Flags.union {} = f := by
  obtain ⟨oneShot, random⟩ := f
  cases oneShot <;> cases random <;> decide

theorem isQuiet_flagItems (f : Flags) : ∀ i ∈ flagItems f, Section.IsQuiet reg false i := by
  obtain ⟨oneShot, random⟩ := f
  cases oneShot <;> cases random <;> intro i hi
  · simp [flagItems, Flags.names] at hi
  all_goals
    obtain rfl := List.mem_singleton.mp hi
    exact ⟨rfl, rfl, rfl⟩

theorem isShown_elementItems (speaking : Bool) (es : List Element) :
    ∀ i ∈ elementItems speaking es, i.isShown = true := by
  induction es generalizing speaking with
  | nil => simp [elementItems]
  | cons e es ih =>
      intro i hi
      rcases List.mem_append.mp hi with hfirst | hrest
      · exact Element.isShown_of_mem_items speaking hfirst
      · exact ih _ i hrest

/-- Exits make no elements, whoever spoke last. -/
theorem elementsFrom_exits (es : List Exit) (speaker : Option Speaker) :
    elementsFrom reg speaker none (es.map Exit.item ++ [.blank]) = [] := by
  induction es with
  | nil => rfl
  | cons e es ih =>
      rw [List.map_cons, List.cons_append, Exit.item]
      cases e.target <;> exact ih

/-- Elements that were written are read back, one behind the other. -/
theorem elementsFrom_elementItems {es : List Element} (h : ∀ e ∈ es, e.Tellable reg)
    (speaker : Option Speaker) (hopen : Element.OpensFrom reg speaker.isSome es)
    {below : List Item} (hbelow : ∀ last, elementsFrom reg last none below = []) :
    elementsFrom reg speaker none (elementItems speaker.isSome es ++ below) = es := by
  induction es generalizing speaker with
  | nil => exact hbelow speaker
  | cons e es ih =>
      rw [elementItems, List.append_assoc,
        Element.elementsFrom_items (h e List.mem_cons_self) hopen.1,
        ih (fun f hf => h f (List.mem_cons_of_mem _ hf)) _ hopen.2]

/-- A dialogue that can be told has its elements read back. -/
theorem elements_items (h : d.Tellable reg) :
    elementsFrom reg none none d.items = d.elements := by
  have hflags : ∀ below, elementsFrom reg none none (flagItems d.flags ++ below) =
      elementsFrom reg none none below := by
    intro below
    unfold flagItems
    split <;> rfl
  rw [items, List.append_assoc, List.append_assoc, hflags]
  exact elementsFrom_elementItems h.elements none h.openings (elementsFrom_exits d.exits)

/-- A dialogue has its flags read back. -/
theorem flags_items (d : Dialogue) :
    (d.items.map Section.itemFlags).foldl Flags.union {} = d.flags := by
  have hrest : ∀ i ∈ elementItems false d.elements ++ (d.exits.map Exit.item ++ [.blank]),
      Section.itemFlags i = {} := by
    intro i hi
    rcases List.mem_append.mp hi with hshown | hlater
    · exact Section.itemFlags_of_isShown (isShown_elementItems false _ i hshown)
    · rcases List.mem_append.mp hlater with hexit | hblank
      · obtain ⟨e, -, rfl⟩ := List.mem_map.mp hexit
        unfold Exit.item
        cases e.target <;> rfl
      · rw [List.mem_singleton.mp hblank]
        rfl
  rw [items, List.append_assoc, List.append_assoc, List.map_append, List.foldl_append,
    foldl_flagItems]
  exact Section.foldl_union_of_flagless hrest d.flags

/-- A dialogue that can be told has its exits read back. -/
theorem exits_items (h : d.Tellable reg) : d.items.filterMap Section.itemExit = d.exits := by
  have hflags : (flagItems d.flags).filterMap Section.itemExit = [] := by
    unfold flagItems
    split <;> rfl
  have hshown := Section.filterMap_itemExit_of_isShown (isShown_elementItems false d.elements)
  have hexits : (d.exits.map Exit.item).filterMap Section.itemExit = d.exits := by
    rw [List.filterMap_map]
    calc d.exits.filterMap (Section.itemExit ∘ Exit.item)
        = d.exits.filterMap some :=
          List.filterMap_congr fun e he => Exit.itemExit_item (h.exits e he)
      _ = d.exits := List.filterMap_some
  rw [items, List.filterMap_append, List.filterMap_append, List.filterMap_append, hflags, hshown,
    hexits]
  simp [Section.itemExit]

/-- A dialogue that can be told is read back from its items. -/
theorem dialogue_items (h : d.Tellable reg) :
    Section.dialogue reg ⟨Place.nowhere, d.name.toList, d.items.map Located.bare⟩ = d := by
  have hitems : (d.items.map Located.bare).map Located.item = d.items := by
    rw [List.map_map]
    exact List.map_id d.items
  simp only [Section.dialogue, hitems, elements_items h, flags_items, exits_items h,
    String.ofList_toList]

/-! ### Reports -/

theorem diagnosticsFrom_elementItems {es : List Element} (h : ∀ e ∈ es, e.Tellable reg)
    (speaking : Bool) (below : List Located) :
    diagnosticsFrom reg false ((elementItems speaking es).map Located.bare ++ below) =
      diagnosticsFrom reg false below := by
  induction es generalizing speaking with
  | nil => rfl
  | cons e es ih =>
      rw [elementItems, List.map_append, List.append_assoc,
        Element.diagnosticsFrom_items (h e List.mem_cons_self)]
      exact ih (fun f hf => h f (List.mem_cons_of_mem _ hf)) _

/-- Of a written dialogue only the expressions in its exits can be reported. -/
theorem diagnosticsFrom_exits {es : List Exit} (h : ∀ e ∈ es, e.Writable) (isOpen : Bool)
    (below : List Located) :
    (diagnosticsFrom reg isOpen ((es.map Exit.item).map Located.bare ++ below)).map
        Diagnostic.problem =
      es.flatMap Exit.problems ++ (diagnosticsFrom reg isOpen below).map Diagnostic.problem := by
  induction es with
  | nil => rfl
  | cons e es ih =>
      have hproblems := Exit.problems_item reg (h e List.mem_cons_self) isOpen
      have hrest := ih fun f hf => h f (List.mem_cons_of_mem _ hf)
      rw [List.map_cons, List.map_cons, List.cons_append, diagnosticsFrom, List.flatMap_cons,
        List.map_append, List.map_append, List.append_assoc]
      simp only [Located.bare, Exit.isOpen_item] at hrest ⊢
      rw [hrest, ← hproblems, List.map_map, List.append_assoc, List.append_assoc]
      simp [Function.comp_def]

/-- The break at the end is the only thing behind the exits. -/
theorem problems_items (h : d.Tellable reg) :
    (diagnosticsFrom reg false (d.items.map Located.bare)).map Diagnostic.problem =
      d.exits.flatMap Exit.problems := by
  have hflags : ∀ i ∈ (flagItems d.flags).map Located.bare,
      Section.IsQuiet reg false i.item := by
    intro i hi
    obtain ⟨item, hitem, rfl⟩ := List.mem_map.mp hi
    exact isQuiet_flagItems d.flags item hitem
  rw [items, List.append_assoc, List.append_assoc, List.map_append, List.map_append,
    List.map_append, Section.diagnosticsFrom_quiet hflags,
    diagnosticsFrom_elementItems h.elements, diagnosticsFrom_exits h.exits]
  exact List.append_nil _

theorem isHeader_items (d : Dialogue) : ∀ i ∈ d.items, i.isHeader = false := by
  intro i hi
  rcases List.mem_append.mp hi with hfront | hblank
  · rcases List.mem_append.mp hfront with hshown | hexit
    · rcases List.mem_append.mp hshown with hflags | helement
      · unfold flagItems at hflags
        split at hflags
        · exact absurd hflags List.not_mem_nil
        · rw [List.mem_singleton.mp hflags]
          rfl
      · have hshown := isShown_elementItems false _ i helement
        cases i <;> simp_all [Item.isShown, Item.isHeader]
    · obtain ⟨e, -, rfl⟩ := List.mem_map.mp hexit
      unfold Exit.item
      cases e.target <;> rfl
  · rw [List.mem_singleton.mp hblank]
    rfl

end Dialogue

/-! ### Graphs -/

namespace Script

/-- The section that a written dialogue makes. -/
def writtenSection (d : Dialogue) : Section :=
  ⟨Place.nowhere, d.name.toList, d.items.map Located.bare⟩

/-- Written dialogues are divided at their headers again. -/
theorem divide_items {ds : List Dialogue} (h : ∀ d ∈ ds, d.Tellable reg) :
    Section.divide ((ds.flatMap fun d => .header d.name.toList :: d.items).map Located.bare) =
      ([], ds.map writtenSection) := by
  induction ds with
  | nil => rfl
  | cons d ds ih =>
      have hne := (h d List.mem_cons_self).name.ne_nil
      have hitems : ∀ i ∈ d.items.map Located.bare, i.item.isHeader = false := by
        intro i hi
        obtain ⟨item, hitem, rfl⟩ := List.mem_map.mp hi
        exact d.isHeader_items item hitem
      rw [List.flatMap_cons, List.cons_append, List.map_cons, List.map_append, Located.bare,
        Section.divide_header hne, Section.divide_append hitems,
        ih fun e he => h e (List.mem_cons_of_mem _ he), List.append_nil]
      rfl

theorem repeated?_writtenSections {ds : List Dialogue} (h : (ds.map Dialogue.name).Nodup) :
    Section.repeated? [] (ds.map writtenSection) = none := by
  have hkeys : (ds.map writtenSection).map Section.key =
      (ds.map Dialogue.name).map String.toList := by
    rw [List.map_map, List.map_map]
    rfl
  rw [Section.repeated?_eq_none_iff, hkeys]
  refine ⟨List.pairwise_map.mpr (h.imp fun hne heq => hne (String.toList_inj.mp heq)), ?_⟩
  intro s _
  exact List.not_mem_nil

/-- The items of a written graph; without dialogues there is one empty line. -/
def writtenItems : List Dialogue → List Item
  | [] => [.blank]
  | ds => ds.flatMap fun d => .header d.name.toList :: d.items

/-- The written text is read to the items of the graph. -/
theorem readAs_write {ds : List Dialogue} (h : ∀ d ∈ ds, d.Tellable reg) :
    ReadAs (Text.splitOn '\n' (write ds).toList) (writtenItems ds) := by
  have hlines : ∀ d ∈ ds, ∀ line ∈ d.writtenLines, '\n' ∉ line := fun d hd line hline =>
    ((Dialogue.readAs (h d hd)).absent line (List.mem_append_left _ hline)).plain.1
  rw [splitOn_write hlines]
  cases ds with
  | nil => exact readAs_blank
  | cons d ds => exact .flatMap fun e he => Dialogue.readAs (h e he)

theorem divide_writtenItems {ds : List Dialogue} (h : ∀ d ∈ ds, d.Tellable reg) :
    ∃ before, Section.divide ((writtenItems ds).map Located.bare) =
        (before, ds.map writtenSection) ∧
      Section.orphan? none before = none ∧ diagnosticsFrom reg false before = [] := by
  cases ds with
  | nil => exact ⟨[Located.bare .blank], rfl, rfl, rfl⟩
  | cons d ds => exact ⟨[], divide_items h, rfl, rfl⟩

/-- Whatever the written form can tell is read from it again. -/
theorem read_of_tellable {ds : List Dialogue} (hdistinct : (ds.map Dialogue.name).Nodup)
    (h : ∀ d ∈ ds, d.Tellable reg) :
    ∃ script, parse reg (write ds) = .ok script ∧ script.dialogues = ds ∧
      script.diagnostics.map Diagnostic.problem =
        ds.flatMap fun d => d.exits.flatMap Exit.problems := by
  obtain ⟨before, hdivide, horphan, hquiet⟩ := divide_writtenItems h
  obtain ⟨script, hparse, hdialogues, hproblems⟩ := parse_of_readAs (readAs_write h) hdivide
    horphan (repeated?_writtenSections hdistinct)
  refine ⟨script, hparse, ?_, ?_⟩
  · rw [hdialogues, List.map_map]
    calc ds.map (Section.dialogue reg ∘ writtenSection)
        = ds.map id := List.map_congr_left fun d hd => Dialogue.dialogue_items (h d hd)
      _ = ds := List.map_id ds
  · rw [hproblems, hquiet, List.map_nil, List.nil_append, List.flatMap_map]
    exact List.flatMap_congr fun d hd => Dialogue.problems_items (h d hd)

/-- Reading what was written gives the same dialogues in the same order. All that is reported are
the conditions and the arguments that do not parse, and assignments of nothing. -/
theorem parse_write {ds : List Dialogue} (hname : reg.resolve "" = none)
    (h : Writable reg ds) :
    ∃ script, parse reg (write ds) = .ok script ∧ script.dialogues = ds ∧
      script.diagnostics.map Diagnostic.problem =
        ds.flatMap fun d => d.exits.flatMap Exit.problems := by
  apply read_of_tellable h.distinct
  intro d hd
  exact (h.dialogues d hd).tellable hname

/-- Two dialogues with every kind of line in them. -/
def sample : List Dialogue :=
  [{ name := "gate"
     flags := { oneShot := true, random := true }
     elements :=
       [{ speaker := some { name := "Ann" }, text := "# Halt!\nWho goes there?"
          choices := [⟨"A friend", "yard"⟩, ⟨"Nobody", "gate"⟩] },
         { text := "A dog barks." }, {}]
     exits :=
       [⟨"coins > 1", .key "yard"⟩,
         ⟨"", .code [.call "play" ["\"a, b\"", "max(1, 2)"], .assign "seen" "x == ';'",
           ⟨.assignment, "x", []⟩]⟩] },
    { name := "yard", exits := [⟨"", .key "gate"⟩] }]

theorem parse_write_sample :
    Registry.implicitly.resolve "" = none ∧ Writable Registry.implicitly sample ∧
      ∃ script, parse Registry.implicitly (write sample) = .ok script ∧
        script.dialogues = sample ∧
        script.diagnostics.map Diagnostic.problem =
          sample.flatMap fun d => d.exits.flatMap Exit.problems :=
  have hname : Registry.implicitly.resolve "" = none := by decide
  have hwritable : Writable Registry.implicitly sample := by decide
  ⟨hname, hwritable, parse_write hname hwritable⟩

end Script

end Parley
