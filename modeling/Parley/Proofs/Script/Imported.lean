import Parley.Store
import Parley.Proofs.Script.WellFormed

/-!
# Scripts as stores

Every script that is accepted is read to a well-formed graph, and can be put into a store as it is.
Outside the texts of its elements no part of the graph reaches over a line end, since each was read
off one line. A speaker is the exception: one who was registered may have any name.
-/

namespace Parley

/-! ### What is read off one line -/

/-- The text of a choice and the key it leads to. -/
def Choice.marks (c : Choice) : List String :=
  [c.text, c.key]

/-- The key, or what the statements are made of. -/
def Target.marks : Target → List String
  | .key word => [word]
  | .code statements => statements.flatMap fun s => s.name :: s.args

/-- The condition of an exit and what its target is made of. -/
def Exit.marks (e : Exit) : List String :=
  e.condition :: e.target.marks

/-- All that the script itself puts into a dialogue, but for the texts of the elements. -/
def Dialogue.marks (d : Dialogue) : List String :=
  d.name :: d.elements.flatMap (fun e => e.choices.flatMap Choice.marks) ++
    d.exits.flatMap Exit.marks

/-- All that is known of a speaker. -/
def Speaker.labels (s : Speaker) : List String :=
  s.name :: s.aliases ++ s.color.toList

/-- A speaker who was registered, or whose labels lie on a line. -/
def Registry.Gives (reg : Registry) (s : Speaker) : Prop :=
  s ∈ reg.speakers ∨ ∀ label ∈ s.labels, '\n' ∉ label.toList

/-- No line ends in a dialogue, unless in the text of an element or with a registered speaker. -/
structure Dialogue.Single (reg : Registry) (d : Dialogue) : Prop where
  marks : ∀ mark ∈ d.marks, '\n' ∉ mark.toList
  speakers : ∀ e ∈ d.elements, ∀ s ∈ e.speaker, reg.Gives s

/-! ### Marks -/

theorem Choice.WellFormed.single {c : Choice} (h : c.WellFormed) :
    ∀ mark ∈ c.marks, '\n' ∉ mark.toList :=
  List.forall_mem_cons.mpr ⟨h.text.single, List.forall_mem_singleton.mpr h.key.single⟩

theorem Statement.WellFormed.isName {s : Statement} (h : s.WellFormed) :
    Lexer.isName s.name.toList = true := by
  cases h <;> assumption

theorem Exit.WellFormed.single {e : Exit} (h : e.WellFormed) :
    ∀ mark ∈ e.marks, '\n' ∉ mark.toList := by
  obtain ⟨condition, target⟩ := e
  refine List.forall_mem_cons.mpr ⟨h.condition.single, ?_⟩
  have htarget := h.target
  cases target with
  | key word => exact List.forall_mem_singleton.mpr htarget.1.single
  | code statements =>
      intro mark hmark
      obtain ⟨s, hs, hmem⟩ := List.mem_flatMap.mp hmark
      have hcode : s.InCode := htarget s hs
      rcases List.mem_cons.mp hmem with rfl | harg
      · exact Lexer.notMem_of_isName hcode.wellFormed.isName (by decide)
      · exact hcode.single mark harg

/-- No part of a well-formed dialogue reaches over a line end, its texts apart. -/
theorem Dialogue.WellFormed.single {d : Dialogue} (h : d.WellFormed) :
    ∀ mark ∈ d.marks, '\n' ∉ mark.toList := by
  refine List.forall_mem_cons.mpr ⟨h.name.single, List.forall_mem_append.mpr ⟨?_, ?_⟩⟩
  · intro mark hmark
    obtain ⟨e, he, hmem⟩ := List.mem_flatMap.mp hmark
    obtain ⟨c, hc, hmem⟩ := List.mem_flatMap.mp hmem
    exact ((h.elements e he).choices c hc).single mark hmem
  · intro mark hmark
    obtain ⟨e, he, hmem⟩ := List.mem_flatMap.mp hmark
    exact (h.exits e he).single mark hmem

/-! ### Speakers -/

/-- A name is resolved to a registered speaker, or to one made up for it. -/
theorem Registry.mem_of_resolve {reg : Registry} {name : String} {s : Speaker}
    (h : reg.resolve name = some s) :
    s ∈ reg.speakers ∨ s = { name := String.ofList (Text.trim name.toList) } := by
  simp only [resolve] at h
  split at h
  · exact .inl (List.mem_of_getElem? h)
  · split at h
    · cases h
      exact .inr rfl
    · cases h

/-- A name on one line is resolved to a registered speaker, or to one on that line. -/
theorem Registry.gives_of_resolve {reg : Registry} {name : List Char} {s : Speaker}
    (hname : '\n' ∉ name) (h : reg.resolve (String.ofList name) = some s) : reg.Gives s := by
  obtain hmem | rfl := mem_of_resolve h
  · exact .inl hmem
  · refine .inr (List.forall_mem_singleton.mpr ?_)
    rw [String.toList_ofList, String.toList_ofList]
    exact Text.notMem_trim hname

namespace Section

variable {reg : Registry}

theorem speaker_withText {P : Speaker → Prop} {speaker : Option Speaker} {draft : Option Draft}
    (hspeaker : ∀ s ∈ speaker, P s) (hd : ∀ d ∈ draft, ∀ s ∈ d.speaker, P s)
    (line : List Char) : ∀ s ∈ (withText speaker draft line).speaker, P s := by
  cases draft with
  | none => exact hspeaker
  | some d => exact hd d rfl

/-- A choice leaves open whose element it is. -/
theorem speaker_withChoice {draft : Option Draft} {d : Draft} {body : List Char}
    (h : d ∈ withChoice draft body) : ∃ e ∈ draft, d.speaker = e.speaker := by
  obtain ⟨e, rfl, hd⟩ := Option.map_eq_some_iff.mp h
  refine ⟨e, rfl, ?_⟩
  rw [← hd]
  split <;> rfl

/-- Whoever speaks an element is a speaker that some tag was resolved to. -/
theorem forall_speaker_elementsFrom {P : Speaker → Prop} {speaker : Option Speaker}
    {draft : Option Draft} {items : List Item} (hspeaker : ∀ s ∈ speaker, P s)
    (hd : ∀ d ∈ draft, ∀ s ∈ d.speaker, P s)
    (h : ∀ name rest, .speaker name rest ∈ items → ∀ s ∈ reg.resolve (String.ofList name), P s) :
    ∀ e ∈ elementsFrom reg speaker draft items, ∀ s ∈ e.speaker, P s := by
  -- The current speaker and that of the open element are carried through the induction.
  have hclosed : ∀ {draft : Option Draft}, (∀ d ∈ draft, ∀ s ∈ d.speaker, P s) →
      ∀ e ∈ (draft.map Draft.element).toList, ∀ s ∈ e.speaker, P s := by
    intro draft hd e he
    rw [Option.mem_toList, Option.map_eq_some_iff] at he
    obtain ⟨d, hmem, rfl⟩ := he
    exact hd d hmem
  have hnone : ∀ d ∈ (none : Option Draft), ∀ s ∈ d.speaker, P s :=
    fun d hmem => absurd hmem (Option.not_mem_none d)
  induction items generalizing speaker draft with
  | nil => exact hclosed hd
  | cons i items ih =>
      have hrest : ∀ name rest, .speaker name rest ∈ items →
          ∀ s ∈ reg.resolve (String.ofList name), P s :=
        fun name rest hmem => h name rest (List.mem_cons_of_mem i hmem)
      cases i with
      | blank | header key =>
          exact List.forall_mem_append.mpr ⟨hclosed hd, ih hspeaker hnone hrest⟩
      | speaker name rest =>
          have hnext := h name rest List.mem_cons_self
          refine List.forall_mem_append.mpr ⟨hclosed hd, ih hnext ?_ hrest⟩
          intro d hmem
          rw [← Option.mem_some.mp hmem]
          exact hnext
      | text line =>
          refine ih hspeaker (fun d hmem => ?_) hrest
          rw [← Option.mem_some.mp hmem]
          exact speaker_withText hspeaker hd line
      | choice body =>
          refine ih hspeaker (fun d hmem => ?_) hrest
          obtain ⟨e, he, heq⟩ := speaker_withChoice hmem
          rw [heq]
          exact hd e he
      | flags list | redirect condition key | code condition body | openCode condition =>
          exact ih hspeaker hd hrest

theorem single_dialogue {s : Section} (h : s.Read) : (dialogue reg s).Single reg := by
  constructor
  · exact (wellFormed_dialogue h).single
  · have hitems : ∀ i ∈ s.items.map Located.item, i.Read := List.forall_mem_map.mpr h.items
    exact forall_speaker_elementsFrom (fun s hs => absurd hs (Option.not_mem_none s))
      (fun d hd => absurd hd (Option.not_mem_none d))
      fun name rest hmem s hs => Registry.gives_of_resolve (hitems _ hmem).1 hs

end Section

/-! ### Stores -/

namespace Script

variable {reg : Registry} {source : String} {script : Script}

/-- No dialogue of an accepted script reaches over a line end but in its texts and its registered
speakers. -/
theorem single_of_parse (h : parse reg source = .ok script) :
    ∀ d ∈ script.dialogues, d.Single reg := by
  intro d hd
  rw [(dialogues_of_parse h).1] at hd
  obtain ⟨s, hs, rfl⟩ := List.mem_map.mp hd
  exact Section.single_dialogue (read_of_mem_partsOf source s hs)

/-- No key is refused for the second time by the store, since the reader has refused it already. -/
theorem exists_ofSource (name : String) (h : parse reg source = .ok script) :
    ∃ store, Store.ofSource name reg source = .ok store ∧ store.name = name ∧
      store.dialogues = script.dialogues ∧ store.diagnostics = script.diagnostics := by
  obtain ⟨store, hstore, hname, hdialogues⟩ :=
    Store.exists_ofDialogues name (wellFormed_of_parse h).distinct
  refine ⟨{ store with diagnostics := script.diagnostics }, ?_, hname, hdialogues, rfl⟩
  simp only [Store.ofSource, h, hstore, Except.map]

/-- What a source is read to is well formed and makes a store that holds the same dialogues in the
same order; what is refused makes no store, for the same reason. -/
theorem parse_imported (name : String) (reg : Registry) (source : String) :
    (∀ script, parse reg source = .ok script →
      WellFormed script.dialogues ∧ (∀ d ∈ script.dialogues, d.Single reg) ∧
        ∃ store, Store.ofSource name reg source = .ok store ∧ store.name = name ∧
          store.dialogues = script.dialogues ∧ store.diagnostics = script.diagnostics) ∧
      ∀ error, parse reg source = .error error →
        Store.ofSource name reg source = .error error := by
  constructor
  · intro script h
    exact ⟨wellFormed_of_parse h, single_of_parse h, exists_ofSource name h⟩
  · intro error h
    simp only [Store.ofSource, h]

/-- Every kind of line, some of them faulty. -/
def motley : String :=
  "# toll\n[ann]: Halt!\n  Pay.\n* Pay -> paid\n* Run\n\x7bx\x7d=>paid\n=>\x7b\n" ++
    "x = 2; f(x, ';');\n\x7d\n# paid\n[]:\n"

/-- A script with tags, choices, conditions and code, as a store. -/
theorem motley_imported :
    ∃ script, parse Registry.implicitly motley = .ok script ∧
      WellFormed script.dialogues ∧ (∀ d ∈ script.dialogues, d.Single Registry.implicitly) ∧
        ∃ store, Store.ofSource "tolls" Registry.implicitly motley = .ok store ∧
          store.name = "tolls" ∧ store.dialogues = script.dialogues ∧
            store.diagnostics = script.diagnostics :=
  have ⟨script, hparse⟩ : ∃ script, parse Registry.implicitly motley = .ok script := ⟨_, rfl⟩
  ⟨script, hparse, (parse_imported "tolls" Registry.implicitly motley).1 script hparse⟩

/-- A registered name may reach over a line end, and the dialogue that uses it holds it whole. -/
theorem broken_name_in_dialogue :
    ∃ script, parse (Registry.ofSpeakers false [⟨"Bob\nBuilder", ["bob"], none⟩])
        "# k\n[bob]: hi\n" = .ok script ∧
      ∃ d ∈ script.dialogues, ∃ e ∈ d.elements, ∃ s ∈ e.speaker, '\n' ∈ s.name.toList := by
  refine ⟨_, rfl, ?_⟩
  decide

end Script

end Parley
