import Parley.Proofs.Script.LineItems
import Parley.Proofs.Script.Sections

/-!
# Well-formed graphs

What a graph is like that a script was read to, whatever the source. Each step of the reader keeps
what the step before it made sure of: the lines of an element have something in them, only its
first line can look like anything but text, and every name, key and condition could stand on a
line where it was read.
-/

namespace Parley

open Text (trim breakOn?)
open Script (Fragment Phrase Clause Prose)

/-! ### Conditions on a graph -/

/-- What a choice is like that was read off a line. -/
structure Choice.WellFormed (c : Choice) : Prop where
  text : Phrase c.text.toList
  key : Phrase c.key.toList
  arrowless : ¬ ['-', '>'] <:+: c.text.toList

/-- The first line may have stood behind a tag, and be anything. -/
structure Element.WellFormed (e : Element) : Prop where
  lines : e.text ≠ "" → ∀ line ∈ e.textLines, Phrase line
  rest : ∀ line ∈ e.restLines, Prose line
  choices : ∀ c ∈ e.choices, c.WellFormed

/-- Behind a condition, a key that holds `}=>{` would have been read as a code block. -/
def Target.WellFormed (conditional : Prop) : Target → Prop
  | .key word => Phrase word.toList ∧
      (conditional → ¬ ['\x7d', '=', '>', '\x7b'] <:+: word.toList)
  | .code statements => ∀ s ∈ statements, s.InCode

/-- What an exit is like that was read off its lines. -/
structure Exit.WellFormed (e : Exit) : Prop where
  condition : Clause e.condition.toList
  target : e.target.WellFormed (e.condition ≠ "")

/-- What a dialogue is like that was read, whatever the source. -/
structure Dialogue.WellFormed (d : Dialogue) : Prop where
  name : Phrase d.name.toList
  elements : ∀ e ∈ d.elements, e.WellFormed
  exits : ∀ e ∈ d.exits, e.WellFormed

/-- No two dialogues that were read have one name. -/
structure Script.WellFormed (ds : List Dialogue) : Prop where
  distinct : (ds.map Dialogue.name).Nodup
  dialogues : ∀ d ∈ ds, d.WellFormed

/-! ### Sections -/

namespace Section

variable {reg : Registry}

/-- A section begins at a header with a key. -/
structure Read (s : Section) : Prop where
  key : Phrase s.key
  items : ∀ i ∈ s.items, i.item.Read

/-- Cut at the headers, items are still what they were read to. -/
theorem read_divide {items : List Located} (h : ∀ i ∈ items, i.item.Read) :
    (∀ i ∈ (divide items).1, i.item.Read) ∧ ∀ s ∈ (divide items).2, s.Read := by
  induction items with
  | nil => exact ⟨List.forall_mem_nil _, List.forall_mem_nil _⟩
  | cons i items ih =>
      obtain ⟨hfirst, hrest⟩ := List.forall_mem_cons.mp h
      obtain ⟨hbefore, hsections⟩ := ih hrest
      obtain ⟨place, item⟩ := i
      have hkeep : (∀ j ∈ ⟨place, item⟩ :: (divide items).1, j.item.Read) ∧
          ∀ s ∈ (divide items).2, s.Read :=
        ⟨List.forall_mem_cons.mpr ⟨hfirst, hbefore⟩, hsections⟩
      cases item with
      | header key =>
          cases key with
          | nil => exact hkeep
          | cons c key =>
              have hsection : Read ⟨place, c :: key, (divide items).1⟩ :=
                ⟨⟨hfirst, List.cons_ne_nil c key⟩, hbefore⟩
              exact ⟨List.forall_mem_nil _, List.forall_mem_cons.mpr ⟨hsection, hsections⟩⟩
      | _ => exact hkeep

/-- A choice is cut off at the first arrow on its line. -/
theorem wellFormed_of_readChoice {body : List Char} {c : Choice} (h : '\n' ∉ body)
    (hread : readChoice body = .ok c) : c.WellFormed := by
  rw [readChoice] at hread
  split at hread
  · contradiction
  · next before after hbreak =>
      have hbody := Text.eq_append_of_breakOn? hbreak
      have hbefore : Fragment (trim before) := Script.fragment_trim fun hmem =>
        h (hbody ▸ List.mem_append_left _ hmem)
      have hafter : Fragment (trim after) := Script.fragment_trim fun hmem =>
        h (hbody ▸ List.mem_append_right _ (List.mem_append_right _ hmem))
      simp only at hread
      split at hread
      · contradiction
      · next hblank =>
          simp only [Bool.or_eq_true, List.isEmpty_iff, not_or] at hblank
          rw [← Except.ok.inj hread]
          constructor
          · rw [String.toList_ofList]
            exact ⟨hbefore, hblank.1⟩
          · rw [String.toList_ofList]
            exact ⟨hafter, hblank.2⟩
          · rw [String.toList_ofList]
            intro harrow
            exact Text.not_infix_of_breakOn? (List.cons_ne_nil _ _) hbreak
              (harrow.trans (Text.trim_isInfix before))

/-! ### Elements -/

/-- Any line may begin an element, but only text goes on with one. -/
structure Draft.WellFormed (d : Draft) : Prop where
  lines : ∀ line ∈ d.lines, Phrase line
  rest : ∀ line ∈ d.lines.tail, Prose line
  choices : ∀ c ∈ d.choices, c.WellFormed

namespace Draft

variable {d : Draft}

/-- One more line of text keeps an open element well-formed. -/
theorem WellFormed.addLine (h : d.WellFormed) {line : List Char} (hline : Phrase line)
    (hprose : Prose line) : (d.addLine line).WellFormed := by
  have hlast : ∀ l ∈ d.lines.tail ++ [line], Prose l :=
    List.forall_mem_append.mpr ⟨h.rest, List.forall_mem_singleton.mpr hprose⟩
  refine ⟨?_, fun l hl => hlast l ?_, h.choices⟩
  · exact List.forall_mem_append.mpr ⟨h.lines, List.forall_mem_singleton.mpr hline⟩
  · cases hlines : d.lines with
    | nil => simp [Draft.addLine, hlines] at hl
    | cons first rest => simpa [Draft.addLine, hlines] using hl

theorem WellFormed.addChoice (h : d.WellFormed) {c : Choice} (hc : c.WellFormed) :
    (d.addChoice c).WellFormed := by
  refine ⟨h.lines, h.rest, ?_⟩
  exact List.forall_mem_append.mpr ⟨h.choices, List.forall_mem_singleton.mpr hc⟩

theorem textLines_element (h : d.WellFormed) (hne : d.lines ≠ []) :
    d.element.textLines = d.lines := by
  rw [Element.textLines, element, String.toList_ofList]
  exact Text.splitOn_joinWith hne fun line hline => (h.lines line hline).single

/-- An open element that is well-formed is closed to a well-formed one. -/
theorem WellFormed.element (h : d.WellFormed) : d.element.WellFormed := by
  by_cases hlines : d.lines = []
  · have htext : d.element.text = "" := by
      rw [Draft.element, hlines]
      rfl
    have hrest : d.element.restLines = [] := by
      rw [Element.restLines, Element.textLines, htext]
      rfl
    refine ⟨fun hne => absurd htext hne, ?_, h.choices⟩
    rw [hrest]
    exact List.forall_mem_nil _
  · have hall := textLines_element h hlines
    refine ⟨fun _ => ?_, ?_, h.choices⟩
    · rw [hall]
      exact h.lines
    · rw [Element.restLines, hall]
      exact h.rest

theorem wellFormed_of_mem_none : ∀ d ∈ (none : Option Draft), d.WellFormed :=
  fun d hd => absurd hd (Option.not_mem_none d)

theorem WellFormed.of_mem_some (h : d.WellFormed) : ∀ e ∈ some d, e.WellFormed := by
  intro e he
  rwa [← Option.mem_some.mp he]

end Draft

theorem wellFormed_openDraft {rest : List Char} (h : Fragment rest) (speaker : Option Speaker) :
    (openDraft speaker rest).WellFormed := by
  rw [openDraft]
  by_cases hrest : rest = []
  · constructor <;> simp [hrest]
  · have hlines : ∀ line ∈ [rest], Phrase line := List.forall_mem_singleton.mpr ⟨h, hrest⟩
    constructor <;> simp_all

theorem wellFormed_withText {draft : Option Draft} (hd : ∀ d ∈ draft, d.WellFormed)
    {line : List Char} (hline : Phrase line) (hprose : Prose line) (speaker : Option Speaker) :
    (withText speaker draft line).WellFormed := by
  cases draft with
  | none =>
      exact ⟨List.forall_mem_singleton.mpr hline, List.forall_mem_nil _, List.forall_mem_nil _⟩
  | some d => exact (hd d rfl).addLine hline hprose

theorem wellFormed_withChoice {draft : Option Draft} (hd : ∀ d ∈ draft, d.WellFormed)
    {body : List Char} (h : '\n' ∉ body) : ∀ d ∈ withChoice draft body, d.WellFormed := by
  cases draft with
  | none => exact hd
  | some d =>
      intro e he
      rw [withChoice, Option.map_some] at he
      rw [← Option.mem_some.mp he]
      split
      · next c hc => exact (hd d rfl).addChoice (wellFormed_of_readChoice h hc)
      · exact hd d rfl

/-- Every step leaves well-formed elements behind it and a well-formed one open. -/
theorem wellFormed_of_mem_elementsFrom {speaker : Option Speaker} {draft : Option Draft}
    {items : List Item} (hd : ∀ d ∈ draft, d.WellFormed) (h : ∀ i ∈ items, i.Read) :
    ∀ e ∈ elementsFrom reg speaker draft items, e.WellFormed := by
  have hclosed : ∀ {draft : Option Draft}, (∀ d ∈ draft, d.WellFormed) →
      ∀ e ∈ (draft.map Draft.element).toList, e.WellFormed := by
    intro draft hd e he
    rw [Option.mem_toList, Option.map_eq_some_iff] at he
    obtain ⟨d, hmem, rfl⟩ := he
    exact (hd d hmem).element
  induction items generalizing speaker draft with
  | nil => exact hclosed hd
  | cons i items ih =>
      obtain ⟨hfirst, hrest⟩ := List.forall_mem_cons.mp h
      -- A break and a tag both close the open element; only what is open behind them differs.
      have hbreak : ∀ next d, (∀ e ∈ d, e.WellFormed) →
          ∀ e ∈ (draft.map Draft.element).toList ++ elementsFrom reg next d items,
            e.WellFormed := fun next d hnext =>
        List.forall_mem_append.mpr ⟨hclosed hd, ih hnext hrest⟩
      cases i with
      | blank | header key => exact hbreak speaker none Draft.wellFormed_of_mem_none
      | speaker name rest => exact hbreak _ _ (wellFormed_openDraft hfirst.2 _).of_mem_some
      | text line =>
          exact ih (wellFormed_withText hd hfirst.1 hfirst.2 speaker).of_mem_some hrest
      | choice body => exact ih (wellFormed_withChoice hd hfirst) hrest
      | flags list | redirect condition key | code condition body | openCode condition =>
          exact ih hd hrest

/-! ### Exits and dialogues -/

/-- Every exit that is read is well-formed. -/
theorem wellFormed_of_itemExit {i : Item} {e : Exit} (h : i.Read) (he : itemExit i = some e) :
    e.WellFormed := by
  have hnil : ∀ {condition : List Char}, String.ofList condition ≠ "" → condition ≠ [] := by
    rintro condition hne rfl
    exact hne rfl
  cases i with
  | redirect condition key =>
      cases key with
      | nil => simp [itemExit] at he
      | cons c key =>
          obtain ⟨hcondition, hkey, hblock⟩ := h
          rw [← Option.some.inj he]
          constructor
          · rwa [String.toList_ofList]
          · change Phrase (String.ofList (c :: key)).toList ∧ _
            rw [String.toList_ofList]
            exact ⟨⟨hkey, List.cons_ne_nil c key⟩, fun hne => hblock (hnil hne)⟩
  | code condition body =>
      rw [← Option.some.inj he]
      constructor
      · rw [String.toList_ofList]
        exact h.clause
      · exact Code.inCode_of_mem_statements h.single
  | _ => simp [itemExit] at he

/-- Every dialogue that is read is well-formed. -/
theorem wellFormed_dialogue {s : Section} (h : s.Read) : (dialogue reg s).WellFormed := by
  have hitems : ∀ i ∈ s.items.map Located.item, i.Read := List.forall_mem_map.mpr h.items
  refine ⟨?_, ?_, ?_⟩
  · change Phrase (String.ofList s.key).toList
    rw [String.toList_ofList]
    exact h.key
  · exact wellFormed_of_mem_elementsFrom Draft.wellFormed_of_mem_none hitems
  · intro e he
    obtain ⟨i, hi, hexit⟩ := List.mem_filterMap.mp he
    exact wellFormed_of_itemExit (hitems i hi) hexit

end Section

/-! ### Whole scripts -/

namespace Script

variable {reg : Registry} {source : String} {script : Script}

theorem dialogues_of_parse (h : parse reg source = .ok script) :
    script.dialogues = (partsOf (Line.ofSource source.toList)).2.map (Section.dialogue reg) ∧
      Section.repeated? [] (partsOf (Line.ofSource source.toList)).2 = none := by
  obtain ⟨rfl, -, hrepeated⟩ := eq_of_parse h
  exact ⟨rfl, hrepeated⟩

theorem read_of_mem_items (source : String) :
    ∀ i ∈ Item.gather none (Comment.clear false (Line.ofSource source.toList)).1, i.item.Read :=
  have hlines := Comment.cleared_of_mem_clear false (Line.notMem_of_mem_ofSource source.toList)
  Item.read_of_mem_gather none (fun p hp => absurd hp (Option.not_mem_none p)) hlines

theorem read_of_mem_partsOf (source : String) :
    ∀ s ∈ (partsOf (Line.ofSource source.toList)).2, s.Read :=
  (Section.read_divide (read_of_mem_items source)).2

/-- Every script that is accepted is read to a well-formed graph. -/
theorem wellFormed_of_parse (h : parse reg source = .ok script) : WellFormed script.dialogues := by
  obtain ⟨hdialogues, hrepeated⟩ := dialogues_of_parse h
  constructor
  · have hkeys := (Section.repeated?_eq_none_iff.mp hrepeated).1
    have hnames : script.dialogues.map Dialogue.name =
        ((partsOf (Line.ofSource source.toList)).2.map Section.key).map String.ofList := by
      rw [hdialogues, List.map_map, List.map_map]
      rfl
    rw [hnames]
    exact List.pairwise_map.mpr (hkeys.imp fun hne heq => hne (String.ofList_inj.mp heq))
  · intro d hd
    rw [hdialogues] at hd
    obtain ⟨s, hs, rfl⟩ := List.mem_map.mp hd
    exact Section.wellFormed_dialogue (read_of_mem_partsOf source s hs)

end Script

end Parley
