import Parley.Proofs.Script.Refusal
import Parley.Proofs.Script.WellFormed

/-!
# Where everything in a script goes

Reading a script loses no text, choice or exit, doubles none and moves none. Each of them is found
again in the dialogue of the nearest header above it, and all of them in the order of the source.

## Implementation notes

The three kinds are told from the items by functions of one shape, that see an item and whether an
element is open in front of it. They say by themselves what an item holds, and do not ask the
reader. How items fall under headers is then shown once for all kinds, and what a dialogue makes of
its items once for each.
-/

namespace Parley

open Text (trim breakOn?)

/-! ### What items and elements hold -/

namespace Item

/-- The line of an element that an item holds, if any: text, or what stands behind a tag. -/
def spoken (_ : Bool) : Item → List (List Char)
  | .text line => [line]
  | .speaker _ rest => if rest.isEmpty then [] else [rest]
  | _ => []

/-- The choice that an item adds to the element open in front of it: what stands before the first
arrow, and what stands behind it, where neither is blank. -/
def accepted (isOpen : Bool) : Item → List Choice
  | .choice body =>
      match breakOn? ['-', '>'] body with
      | none => []
      | some (before, after) =>
          if isOpen ∧ trim before ≠ [] ∧ trim after ≠ [] then
            [⟨String.ofList (trim before), String.ofList (trim after)⟩]
          else []
  | _ => []

/-- A transition with a destination, or a code block that is closed. -/
def exits (_ : Bool) : Item → List Exit
  | .redirect condition key =>
      if key = [] then [] else [⟨String.ofList condition, .key (String.ofList key)⟩]
  | .code condition body => [⟨String.ofList condition, .code (Code.statements body)⟩]
  | _ => []

/-- Whether an element is open behind an item: text and tags open one, blank lines and headers close
it, and what stands in the middle of an element leaves it as it was. -/
def leavesOpen (isOpen : Bool) : Item → Bool
  | .text _ | .speaker _ _ => true
  | .blank | .header _ => false
  | .choice _ | .flags _ | .redirect _ _ | .code _ _ | .openCode _ => isOpen

/-- No choice belongs to an element that is not there. -/
theorem accepted_false (i : Item) : i.accepted false = [] := by
  cases i with
  | choice body =>
      rw [accepted]
      cases breakOn? ['-', '>'] body with
      | none => rfl
      | some cut => exact if_neg fun h => absurd h.1 Bool.false_ne_true
  | _ => rfl

end Item

/-- An empty text has no lines, though cutting it leaves an empty one. -/
def Element.spoken (e : Element) : List (List Char) :=
  if e.text = "" then [] else e.textLines

namespace Section

variable {α : Type} (part : Bool → Item → List α)

/-- What a list of items holds, where an element is open in front of it or not. -/
def gathered : (isOpen : Bool) → List Item → List α
  | _, [] => []
  | isOpen, i :: items => part isOpen i ++ gathered (i.leavesOpen isOpen) items

/-- What a list of items holds, each with the key of the nearest header above it. -/
def filed : Option String → (isOpen : Bool) → List Item → List (Option String × α)
  | _, _, [] => []
  | key, isOpen, i :: items =>
      let key := (i.key?.map String.ofList).or key
      (part isOpen i).map (key, ·) ++ filed key (i.leavesOpen isOpen) items

variable {part}

/-- Under each header with a key, the items of its section are read from the start. -/
theorem filed_eq (hheader : ∀ isOpen key, part isOpen (.header key) = []) (key : Option String)
    (isOpen : Bool) (items : List Located) :
    filed part key isOpen (items.map Located.item) =
      (gathered part isOpen ((divide items).1.map Located.item)).map (key, ·) ++
        (divide items).2.flatMap fun s =>
          (gathered part false (s.items.map Located.item)).map (some (String.ofList s.key), ·) := by
  induction items generalizing key isOpen with
  | nil => rfl
  | cons i items ih =>
      obtain ⟨place, item⟩ := i
      cases hkey : item.key? with
      | none =>
          rw [divide_cons hkey, List.map_cons, filed, hkey, ih, List.map_cons, gathered,
            List.map_append, List.append_assoc]
          rfl
      | some name =>
          obtain ⟨rfl, hname⟩ := Item.key?_eq_some_iff.mp hkey
          rw [divide_header hname, List.map_cons, filed, hheader, hkey, ih]
          rfl

/-- Where there is no content, nothing opens an element. -/
theorem gathered_eq_nil (hpart : ∀ i, Item.content? i = none → part false i = [])
    {items : List Item} (h : ∀ i ∈ items, i.content? = none) : gathered part false items = [] := by
  induction items with
  | nil => rfl
  | cons i items ih =>
      obtain ⟨hfirst, hrest⟩ := List.forall_mem_cons.mp h
      have hopens : i.leavesOpen false = false := by
        cases i with
        | speaker | text => cases hfirst
        | _ => rfl
      rw [gathered, hpart i hfirst, hopens, ih hrest, List.append_nil]

/-! ### What a dialogue makes of its items -/

variable {reg : Registry}

/-- The lines of an open element are those of the element it is closed to. -/
theorem spoken_element {d : Draft} (h : d.WellFormed) : d.element.spoken = d.lines := by
  by_cases hlines : d.lines = []
  · simp [Element.spoken, Draft.element, hlines, Text.joinWith]
  · have hne : d.element.text ≠ "" := by
      intro hempty
      obtain ⟨line, hline⟩ := List.exists_mem_of_ne_nil _ hlines
      have hjoined : Text.joinWith ['\n'] d.lines = [] := String.ofList_inj.mp hempty
      have hinfix := Text.infix_joinWith_of_mem ['\n'] hline
      rw [hjoined] at hinfix
      exact (h.lines line hline).2 (List.infix_nil.mp hinfix)
    rw [Element.spoken, if_neg hne, Draft.textLines_element h hlines]

/-- What is a choice for the reader adds one, and only to an element that is open. -/
theorem choices_withChoice (draft : Option Draft) (body : List Char) :
    (withChoice draft body).toList.flatMap Draft.choices =
      draft.toList.flatMap Draft.choices ++ (Item.choice body).accepted draft.isSome := by
  cases draft with
  | none =>
      rw [Option.isSome_none, Item.accepted_false]
      rfl
  | some d =>
      rw [withChoice, Option.map_some, readChoice, Item.accepted]
      cases breakOn? ['-', '>'] body with
      | none => simp
      | some cut =>
          obtain ⟨before, after⟩ := cut
          by_cases hbefore : trim before = []
          · simp [hbefore]
          · by_cases hafter : trim after = [] <;> simp [hbefore, hafter, Draft.addChoice]

theorem lines_withChoice (draft : Option Draft) (body : List Char) :
    (withChoice draft body).toList.flatMap Draft.lines = draft.toList.flatMap Draft.lines := by
  cases draft with
  | none => rfl
  | some d =>
      rw [withChoice, Option.map_some]
      cases readChoice body <;> rfl

theorem toList_itemExit (isOpen : Bool) (i : Item) : (itemExit i).toList = i.exits isOpen := by
  cases i with
  | redirect condition key => cases key <;> rfl
  | _ => rfl

/-- The text of the open element, and then that of the items, is the text of the elements. -/
theorem spoken_elementsFrom {items : List Item} (h : ∀ i ∈ items, i.Read)
    {draft : Option Draft} (hd : ∀ d ∈ draft, d.WellFormed) (speaker : Option Speaker)
    (isOpen : Bool) :
    (elementsFrom reg speaker draft items).flatMap Element.spoken =
      draft.toList.flatMap Draft.lines ++ gathered Item.spoken isOpen items := by
  have hclosed : ∀ {draft : Option Draft}, (∀ d ∈ draft, d.WellFormed) →
      (draft.map Draft.element).toList.flatMap Element.spoken =
        draft.toList.flatMap Draft.lines := by
    intro draft hd
    cases draft with
    | none => rfl
    | some d => simp [spoken_element (hd d rfl)]
  induction items generalizing draft speaker isOpen with
  | nil => rw [elementsFrom, hclosed hd, gathered, List.append_nil]
  | cons i items ih =>
      obtain ⟨hfirst, hrest⟩ := List.forall_mem_cons.mp h
      cases i with
      | blank | header key =>
          rw [elementsFrom, List.flatMap_append, hclosed hd,
            ih hrest Draft.wellFormed_of_mem_none _ false]
          rfl
      | speaker name rest =>
          rw [elementsFrom, List.flatMap_append, hclosed hd,
            ih hrest (wellFormed_openDraft hfirst.2 _).of_mem_some _ true]
          simp [gathered, Item.leavesOpen, Item.spoken, openDraft]
      | text line =>
          rw [elementsFrom,
            ih hrest (wellFormed_withText hd hfirst.1 hfirst.2 speaker).of_mem_some _ true]
          cases draft <;> simp [gathered, Item.leavesOpen, Item.spoken, withText, Draft.addLine]
      | choice body =>
          rw [elementsFrom, ih hrest (wellFormed_withChoice hd hfirst) _ isOpen, lines_withChoice]
          rfl
      | flags list | redirect condition key | code condition body | openCode condition =>
          exact ih hrest hd speaker isOpen

/-- An item adds its choice to the open element only. -/
theorem choices_elementsFrom (items : List Item) (speaker : Option Speaker)
    (draft : Option Draft) :
    (elementsFrom reg speaker draft items).flatMap Element.choices =
      draft.toList.flatMap Draft.choices ++ gathered Item.accepted draft.isSome items := by
  have hclosed : ∀ draft : Option Draft,
      (draft.map Draft.element).toList.flatMap Element.choices =
        draft.toList.flatMap Draft.choices := by
    intro draft
    cases draft with
    | none => rfl
    | some d => simp [Draft.element]
  induction items generalizing draft speaker with
  | nil => rw [elementsFrom, hclosed, gathered, List.append_nil]
  | cons i items ih =>
      cases i with
      | blank | header key =>
          rw [elementsFrom, List.flatMap_append, hclosed, ih]
          rfl
      | speaker name rest =>
          rw [elementsFrom, List.flatMap_append, hclosed, ih]
          simp [gathered, Item.leavesOpen, Item.accepted, openDraft]
      | text line =>
          rw [elementsFrom, ih]
          cases draft <;> simp [gathered, Item.leavesOpen, Item.accepted, withText, Draft.addLine]
      | choice body =>
          have hopen : (withChoice draft body).isSome = draft.isSome := Option.isSome_map
          rw [elementsFrom, ih, choices_withChoice, hopen, List.append_assoc]
          rfl
      | flags list | redirect condition key | code condition body | openCode condition =>
          exact ih speaker draft

/-- The exits of a dialogue are those its items hold, in their order. -/
theorem exits_eq_gathered (isOpen : Bool) (items : List Item) :
    items.filterMap itemExit = gathered Item.exits isOpen items := by
  induction items generalizing isOpen with
  | nil => rfl
  | cons i items ih =>
      rw [gathered, ← ih, ← toList_itemExit]
      cases hexit : itemExit i with
      | none =>
          rw [List.filterMap_cons_none hexit]
          rfl
      | some e =>
          rw [List.filterMap_cons_some hexit]
          rfl

end Section

namespace Script

/-! ### Whole scripts -/

/-- What dialogues hold, each with the name of its dialogue. -/
def held {α : Type} (whole : Dialogue → List α) (ds : List Dialogue) :
    List (Option String × α) :=
  ds.flatMap fun d => (whole d).map (some d.name, ·)

/-- Dialogues hold what stands in a source, all of it once and in order, each piece in the dialogue
of the nearest header above it that has a key. -/
structure Filed (source : String) (ds : List Dialogue) : Prop where
  names : ds.map Dialogue.name = (headings source).map Prod.fst
  text : held (fun d => d.elements.flatMap Element.spoken) ds =
    Section.filed Item.spoken none false ((items source).map Located.item)
  choices : held (fun d => d.elements.flatMap Element.choices) ds =
    Section.filed Item.accepted none false ((items source).map Located.item)
  exits : held Dialogue.exits ds =
    Section.filed Item.exits none false ((items source).map Located.item)

variable {reg : Registry} {source : String} {script : Script}

/-- A kind of content that sections keep is kept by the script: none of it can stand in front of
the first dialogue. -/
theorem held_eq {α : Type} {part : Bool → Item → List α} {whole : Dialogue → List α}
    (h : parse reg source = .ok script)
    (hheader : ∀ isOpen key, part isOpen (.header key) = [])
    (hcontent : ∀ i, Item.content? i = none → part false i = [])
    (hsection : ∀ s : Section, s.Read →
      whole (Section.dialogue reg s) =
        Section.gathered part false (s.items.map Located.item)) :
    held whole script.dialogues =
      Section.filed part none false ((items source).map Located.item) := by
  have hforeword : Section.gathered part false
      ((Section.divide (items source)).1.map Located.item) = [] := by
    have horphan := (parse_eq_ok_iff.mp ⟨script, h⟩).1
    have hbefore := (Section.orphan?_eq_none_iff.mp horphan).2
    rw [Section.divide_fst]
    exact Section.gathered_eq_nil hcontent (List.forall_mem_map.mpr hbefore)
  rw [Section.filed_eq hheader, hforeword, List.map_nil, List.nil_append,
    (dialogues_of_parse h).1, held, List.flatMap_map]
  apply List.flatMap_congr
  intro s hs
  rw [hsection s (read_of_mem_partsOf source s hs)]
  rfl

/-- A script that is accepted holds all text, choices and exits of its source. -/
theorem filed_of_parse (h : parse reg source = .ok script) : Filed source script.dialogues := by
  constructor
  case names =>
    rw [← map_heading_partsOf, (dialogues_of_parse h).1, List.map_map, List.map_map]
    rfl
  case text =>
    refine held_eq h (fun _ _ => rfl) (fun i hi => ?_) fun s hs => ?_
    · cases i with
      | blank | header key | choice body => rfl
      | _ => cases hi
    · exact Section.spoken_elementsFrom (List.forall_mem_map.mpr hs.items)
        Section.Draft.wellFormed_of_mem_none none false
  case choices =>
    refine held_eq h (fun _ _ => rfl) (fun i _ => Item.accepted_false i) fun s _ => ?_
    exact Section.choices_elementsFrom _ none none
  case exits =>
    refine held_eq h (fun _ _ => rfl) (fun i hi => ?_) fun s _ => ?_
    · cases i with
      | blank | header key | choice body => rfl
      | _ => cases hi
    · exact Section.exits_eq_gathered false _

/-- Flags, code and a choice stand in the middle of the first element, a choice has no element to
belong to, and the last element begins with a choice. -/
def scattered : String :=
  "# a\n[ann]: Well,\n\x7bOneShot\x7d\n=>\x7bx=1;\x7d\n* Yes -> b\nthen.\n\n* Lost -> b\n" ++
    "# b\n\x7bx\x7d=> a\n[bo]:\n* No -> a\nNo!\n"

theorem scattered_filed :
    ∃ script, parse Registry.implicitly scattered = .ok script ∧
      Filed scattered script.dialogues ∧
      held (fun d => d.elements.flatMap Element.spoken) script.dialogues =
        [(some "a", "Well,".toList), (some "a", "then.".toList), (some "b", "No!".toList)] ∧
      held (fun d => d.elements.flatMap Element.choices) script.dialogues =
        [(some "a", ⟨"Yes", "b"⟩), (some "b", ⟨"No", "a"⟩)] ∧
      held Dialogue.exits script.dialogues =
        [(some "a", ⟨"", .code [⟨.assignment, "x", ["1"]⟩]⟩), (some "b", ⟨"x", .key "a"⟩)] :=
  have ⟨script, hparse, hheld⟩ :
      ∃ script, parse Registry.implicitly scattered = .ok script ∧
        held (fun d => d.elements.flatMap Element.spoken) script.dialogues =
          [(some "a", "Well,".toList), (some "a", "then.".toList), (some "b", "No!".toList)] ∧
        held (fun d => d.elements.flatMap Element.choices) script.dialogues =
          [(some "a", ⟨"Yes", "b"⟩), (some "b", ⟨"No", "a"⟩)] ∧
        held Dialogue.exits script.dialogues =
          [(some "a", ⟨"", .code [⟨.assignment, "x", ["1"]⟩]⟩),
            (some "b", ⟨"x", .key "a"⟩)] := ⟨_, rfl, rfl, rfl, rfl⟩
  ⟨script, hparse, filed_of_parse hparse, hheld⟩

end Script

end Parley
