import Mathlib.Data.Option.Basic
import Parley.Proofs.Script.Filing
import Parley.Proofs.Speaker.Claims

/-!
# Who speaks an element

Every element is spoken by whom the last tag in front of it names, its own included, if that tag
stands behind the header of its dialogue. A header without a key changes nothing, and a tag that
names nobody leaves the elements behind it without a speaker.

## Implementation notes

The reader keeps a current speaker, and takes it over when text begins an element. What is shown of
it is that it is the speaker of the last tag at every place of the source. Elements and the items
they begin with are compared as two lists in the order of the source.
-/

namespace Parley

open Text (allBlank trim breakOn?)

/-! ### Tags -/

namespace Item

/-- The name in a tag. -/
def tag? : Item → Option (List Char)
  | .speaker name _ => some name
  | _ => none

/-- Whether an element begins with the item, where one is open in front of it or not. -/
def begins (isOpen : Bool) : Item → Bool
  | .speaker _ _ => true
  | .text _ => !isOpen
  | _ => false

/-- A line is a tag where it begins with a bracket and holds `]:`. The name ends at the first. -/
theorem formOf_eq_speaker_iff {place : Place} {line name rest : List Char} :
    formOf place line = .item (.speaker name rest) ↔
      ∃ after, line = '[' :: (name ++ ']' :: ':' :: after) ∧ ¬ [']', ':'] <:+: name ∧
        trim after = rest := by
  constructor
  · intro h
    unfold formOf at h
    split at h
    case h_3 => cases isShown_of_braceForm h
    case h_4 => cases isShown_of_codeForm h
    case h_7 =>
      split at h
      · next hbreak =>
          cases h
          have hline := Text.eq_append_of_breakOn? hbreak
          exact ⟨_, congrArg _ hline, Text.not_infix_of_breakOn? (List.cons_ne_nil _ _) hbreak, rfl⟩
      · cases h
    all_goals cases h
  · rintro ⟨after, rfl, hname, rfl⟩
    simp only [formOf, Text.breakOn?_pair (by decide) hname]

end Item

/-! ### What stands last -/

section Last

variable {i : Item}

/-- The key of the last header that has one. -/
def lastKey (items : List Item) : Option String :=
  (items.reverse.findSome? Item.key?).map String.ofList

/-- The name in the last tag behind that header. -/
def lastTag (items : List Item) : Option String :=
  ((items.reverse.takeWhile fun i => i.key?.isNone).findSome? Item.tag?).map String.ofList

theorem lastKey_concat (items : List Item) (i : Item) :
    lastKey (items ++ [i]) = (i.key?.map String.ofList).or (lastKey items) := by
  rw [lastKey, List.reverse_concat, List.findSome?_cons]
  cases i.key? <;> rfl

/-- A header with a key makes the tags above it void. -/
theorem lastTag_concat_header {key : List Char} (hkey : i.key? = some key) (items : List Item) :
    lastTag (items ++ [i]) = none := by
  rw [lastTag, List.reverse_concat, List.takeWhile_cons_of_neg (by simp [hkey])]
  rfl

theorem lastTag_concat (hkey : i.key? = none) (items : List Item) :
    lastTag (items ++ [i]) = (i.tag?.map String.ofList).or (lastTag items) := by
  rw [lastTag, List.reverse_concat, List.takeWhile_cons_of_pos (by simp [hkey]),
    List.findSome?_cons]
  cases i.tag? <;> rfl

end Last

/-! ### Beginnings of elements -/

namespace Section

/-- For every item that begins an element, all items up to it. -/
def openingsFrom (above : List Item) : (isOpen : Bool) → List Item → List (List Item)
  | _, [] => []
  | isOpen, i :: items =>
      (if i.begins isOpen then [above ++ [i]] else []) ++
        openingsFrom (above ++ [i]) (opens isOpen i) items

/-- Where the elements of a source begin: for every one of them, all items up to its first. -/
def openings (items : List Item) : List (List Item) :=
  openingsFrom [] false items

/-- An element in the dialogue with a key is one that begins with the last of the items, and is
spoken by whom the last tag names. -/
structure Attributed (reg : Registry) (upTo : List Item) (p : Option String × Element) :
    Prop where
  key : p.1 = lastKey upTo
  speaker : p.2.speaker = (lastTag upTo).bind reg.resolve
  line : ∀ i ∈ upTo.getLast?, ∀ line ∈ i.spoken false, p.2.spoken.head? = some line

/-- The same of an element that is still open. -/
structure Begun (reg : Registry) (key : Option String) (upTo : List Item) (d : Draft) : Prop where
  key : key = lastKey upTo
  speaker : d.speaker = (lastTag upTo).bind reg.resolve
  line : ∀ i ∈ upTo.getLast?, ∀ line ∈ i.spoken false, d.lines.head? = some line
  wellFormed : d.WellFormed

variable {reg : Registry} {key : Option String} {upTo : List Item} {d : Draft}

/-- What is true of an open element is true of the element it is closed to. -/
theorem Begun.attributed (h : Begun reg key upTo d) : Attributed reg upTo (key, d.element) := by
  refine ⟨h.key, h.speaker, fun i hi line hline => ?_⟩
  rw [spoken_element h.wellFormed]
  exact h.line i hi line hline

/-- Further lines do not change with which line an element begins. -/
theorem Begun.addLine (h : Begun reg key upTo d) {line : List Char}
    (hline : (Item.text line).Read) : Begun reg key upTo (d.addLine line) := by
  refine ⟨h.key, h.speaker, fun i hi first hfirst => ?_, h.wellFormed.addLine hline.1 hline.2⟩
  rw [Draft.addLine, List.head?_append, h.line i hi first hfirst]
  rfl

theorem Begun.withChoice (h : Begun reg key upTo d) {body : List Char}
    (hbody : (Item.choice body).Read) :
    ∃ e, withChoice (some d) body = some e ∧ Begun reg key upTo e := by
  cases hread : readChoice body with
  | error problem => exact ⟨d, by simp [Section.withChoice, hread], h⟩
  | ok c =>
      refine ⟨d.addChoice c, by simp [Section.withChoice, hread], h.key, h.speaker, h.line, ?_⟩
      exact h.wellFormed.addChoice (wellFormed_of_readChoice hbody hread)

/-- An element that a tag opens is spoken by whom this very tag names. -/
theorem begun_openDraft {above : List Item} {name rest : List Char}
    (hread : (Item.speaker name rest).Read) (hkey : key = lastKey above) :
    Begun reg key (above ++ [.speaker name rest])
      (openDraft (reg.resolve (String.ofList name)) rest) := by
  constructor
  · rw [lastKey_concat]
    exact hkey
  · rw [lastTag_concat rfl]
    rfl
  · intro i hi line hline
    rw [List.getLast?_concat, Option.mem_some] at hi
    subst hi
    by_cases hrest : rest.isEmpty = true
    · simp [Item.spoken, hrest] at hline
    · simp_all [Item.spoken, openDraft]
  · exact wellFormed_openDraft hread.2 _

/-- An element that a line without a tag opens is spoken by whom the last tag names. -/
theorem begun_text {above : List Item} {line : List Char} {speaker : Option Speaker}
    (hread : (Item.text line).Read) (hkey : key = lastKey above)
    (hspeaker : speaker = (lastTag above).bind reg.resolve) :
    Begun reg key (above ++ [.text line]) (withText speaker none line) := by
  constructor
  · rw [lastKey_concat]
    exact hkey
  · rw [lastTag_concat rfl]
    exact hspeaker
  · intro i hi first hfirst
    rw [List.getLast?_concat, Option.mem_some] at hi
    subst hi
    rw [List.mem_singleton.mp hfirst]
    rfl
  · exact wellFormed_withText Draft.wellFormed_of_mem_none hread.1 hread.2 speaker

/-- The elements of a source, where those of its first section go on from a current speaker and an
open element. -/
def elementsOf (reg : Registry) (key : Option String) (speaker : Option Speaker)
    (draft : Option Draft) (items : List Located) : List (Option String × Element) :=
  (elementsFrom reg speaker draft ((divide items).1.map Located.item)).map (key, ·) ++
    (divide items).2.flatMap fun s =>
      (dialogue reg s).elements.map (some (String.ofList s.key), ·)

/-! ### One item at a time -/

section Steps

variable {isOpen : Bool} {i : Item}

/-- An item that an element begins with leaves one open. -/
theorem openingsFrom_of_begins (h : i.begins isOpen = true) (above items : List Item) :
    openingsFrom above isOpen (i :: items) =
      (above ++ [i]) :: openingsFrom (above ++ [i]) true items := by
  have hopens : opens isOpen i = true := by
    cases i with
    | speaker | text => rfl
    | _ => cases h
  rw [openingsFrom, if_pos h, hopens]
  rfl

/-- Any other item is only passed over. -/
theorem openingsFrom_of_not_begins (h : i.begins isOpen = false) (above items : List Item) :
    openingsFrom above isOpen (i :: items) =
      openingsFrom (above ++ [i]) (opens isOpen i) items := by
  rw [openingsFrom, if_neg (by simp [h])]
  rfl

variable (reg key) (speaker : Option Speaker) (draft : Option Draft) (place : Place)
  (items : List Located)

theorem elementsOf_blank :
    elementsOf reg key speaker draft (⟨place, .blank⟩ :: items) =
      (draft.map Draft.element).toList.map (key, ·) ++ elementsOf reg key speaker none items := by
  rw [elementsOf, divide_cons rfl, List.map_cons, elementsFrom, List.map_append, List.append_assoc]
  rfl

/-- A header without a key ends the open element as a blank line does. -/
theorem elementsOf_header_nil :
    elementsOf reg key speaker draft (⟨place, .header []⟩ :: items) =
      (draft.map Draft.element).toList.map (key, ·) ++ elementsOf reg key speaker none items :=
  elementsOf_blank reg key speaker draft place items

/-- A header with a key begins everything anew. -/
theorem elementsOf_header {name : List Char} (hname : name ≠ []) :
    elementsOf reg key speaker draft (⟨place, .header name⟩ :: items) =
      (draft.map Draft.element).toList.map (key, ·) ++
        elementsOf reg (some (String.ofList name)) none none items := by
  rw [elementsOf, divide_header hname]
  rfl

theorem elementsOf_speaker (name rest : List Char) :
    elementsOf reg key speaker draft (⟨place, .speaker name rest⟩ :: items) =
      (draft.map Draft.element).toList.map (key, ·) ++
        elementsOf reg key (reg.resolve (String.ofList name))
          (some (openDraft (reg.resolve (String.ofList name)) rest)) items := by
  rw [elementsOf, divide_cons rfl, List.map_cons, elementsFrom, List.map_append, List.append_assoc]
  rfl

theorem elementsOf_text (line : List Char) :
    elementsOf reg key speaker draft (⟨place, .text line⟩ :: items) =
      elementsOf reg key speaker (some (withText speaker draft line)) items :=
  rfl

theorem elementsOf_choice (body : List Char) :
    elementsOf reg key speaker draft (⟨place, .choice body⟩ :: items) =
      elementsOf reg key speaker (withChoice draft body) items :=
  rfl

/-- Flags and exits are passed over. -/
theorem elementsOf_of_not_isShown {item : Item} (hshown : item.isShown = false)
    (hheader : item.isHeader = false) :
    elementsOf reg key speaker draft (⟨place, item⟩ :: items) =
      elementsOf reg key speaker draft items := by
  cases item with
  | flags | redirect | code | openCode => rfl
  | header => cases hheader
  | _ => cases hshown

end Steps

theorem attributed_closed {begun : Option (List Item)} {draft : Option Draft}
    (h : Option.Rel (Begun reg key) begun draft) :
    List.Forall₂ (Attributed reg) begun.toList
      ((draft.map Draft.element).toList.map (key, ·)) := by
  cases h with
  | some hbegun => exact .cons hbegun.attributed .nil
  | none => exact .nil

/-- The induction is on the items. A section ends only where the next header begins another, so
that the open element and the current speaker are carried along as the reader carries them. -/
theorem attributed_elementsOf {items : List Located} (hread : ∀ i ∈ items, i.item.Read)
    {above : List Item} {speaker : Option Speaker} {begun : Option (List Item)}
    {draft : Option Draft} (hkey : key = lastKey above)
    (hspeaker : speaker = (lastTag above).bind reg.resolve)
    (hbegun : Option.Rel (Begun reg key) begun draft) :
    List.Forall₂ (Attributed reg)
      (begun.toList ++ openingsFrom above begun.isSome (items.map Located.item))
      (elementsOf reg key speaker draft items) := by
  induction items generalizing above key speaker begun draft with
  | nil => exact List.rel_append (attributed_closed hbegun) .nil
  | cons i items ih =>
      obtain ⟨hfirst, hrest⟩ := List.forall_mem_cons.mp hread
      obtain ⟨place, item⟩ := i
      have hclosed := attributed_closed hbegun
      -- An item that is neither a tag nor a header with a key leaves key and speaker as they are.
      have hpass : item.key? = none → item.tag? = none → key = lastKey (above ++ [item]) ∧
          speaker = (lastTag (above ++ [item])).bind reg.resolve := by
        intro hnokey hnotag
        rw [lastKey_concat, lastTag_concat hnokey, hnokey, hnotag]
        exact ⟨hkey, hspeaker⟩
      rw [List.map_cons]
      cases item with
      | blank =>
          obtain ⟨hkey', hspeaker'⟩ := hpass rfl rfl
          rw [openingsFrom_of_not_begins rfl, elementsOf_blank]
          exact List.rel_append hclosed (ih hrest hkey' hspeaker' .none)
      | header name =>
          rw [openingsFrom_of_not_begins rfl]
          by_cases hname : name = []
          · subst hname
            obtain ⟨hkey', hspeaker'⟩ := hpass rfl rfl
            rw [elementsOf_header_nil]
            exact List.rel_append hclosed (ih hrest hkey' hspeaker' .none)
          · have hheader : (Item.header name).key? = some name :=
              Item.key?_eq_some_iff.mpr ⟨rfl, hname⟩
            have hkey' : some (String.ofList name) = lastKey (above ++ [.header name]) := by
              rw [lastKey_concat, hheader]
              rfl
            have hspeaker' : none = (lastTag (above ++ [.header name])).bind reg.resolve := by
              rw [lastTag_concat_header hheader]
              rfl
            rw [elementsOf_header reg key speaker draft place items hname]
            exact List.rel_append hclosed (ih hrest hkey' hspeaker' .none)
      | speaker name rest =>
          have hbegun' : Begun reg key (above ++ [.speaker name rest]) _ :=
            begun_openDraft hfirst hkey
          rw [openingsFrom_of_begins rfl, elementsOf_speaker]
          exact List.rel_append hclosed (ih hrest hbegun'.key hbegun'.speaker (.some hbegun'))
      | text line =>
          obtain ⟨hkey', hspeaker'⟩ := hpass rfl rfl
          rw [elementsOf_text]
          cases hbegun with
          | some h =>
              rw [openingsFrom_of_not_begins rfl]
              exact ih hrest hkey' hspeaker' (.some (h.addLine hfirst))
          | none =>
              rw [openingsFrom_of_begins rfl]
              exact ih hrest hkey' hspeaker' (.some (begun_text hfirst hkey hspeaker))
      | choice body =>
          obtain ⟨hkey', hspeaker'⟩ := hpass rfl rfl
          rw [openingsFrom_of_not_begins rfl, elementsOf_choice]
          cases hbegun with
          | some h =>
              obtain ⟨e, hchoice, he⟩ := h.withChoice hfirst
              rw [hchoice]
              exact ih hrest hkey' hspeaker' (.some he)
          | none => exact ih hrest hkey' hspeaker' .none
      | flags list | redirect condition name | code condition body | openCode condition =>
          obtain ⟨hkey', hspeaker'⟩ := hpass rfl rfl
          rw [openingsFrom_of_not_begins rfl, elementsOf_of_not_isShown _ _ _ _ _ _ rfl rfl]
          exact ih hrest hkey' hspeaker' hbegun

/-- Where there is no content, there are no elements. -/
theorem elementsFrom_eq_nil {items : List Item} (h : ∀ i ∈ items, i.content? = none)
    (speaker : Option Speaker) : elementsFrom reg speaker none items = [] := by
  induction items generalizing speaker with
  | nil => rfl
  | cons i items ih =>
      obtain ⟨hfirst, hrest⟩ := List.forall_mem_cons.mp h
      cases i with
      | blank | header key | choice body => exact ih hrest speaker
      | _ => cases hfirst

/-- Elements that begin below a header stand one by one beside the items they begin with. -/
theorem attributed_openings {items : List Located} (hread : ∀ i ∈ items, i.item.Read)
    (hbefore : ∀ i ∈ (divide items).1, i.item.content? = none) :
    List.Forall₂ (Attributed reg) (openings (items.map Located.item))
      (Script.held Dialogue.elements ((divide items).2.map (dialogue reg))) := by
  have hheld : elementsOf reg none none none items =
      Script.held Dialogue.elements ((divide items).2.map (dialogue reg)) := by
    rw [elementsOf, elementsFrom_eq_nil (List.forall_mem_map.mpr hbefore), Script.held,
      List.flatMap_map]
    rfl
  rw [← hheld]
  exact attributed_elementsOf hread rfl rfl .none

end Section

/-! ### Whole scripts -/

namespace Script

open Section (Attributed openings)

/-- The elements of a script that is accepted, in order, and the items of its source that elements
begin with. Each element stands in the dialogue of the last header above it that has a key, begins
with the line of its item, and is spoken by whom the last tag names that stands behind that header
and not behind the item; where there is none, or it names nobody, by nobody. A header without a key
makes no difference. A tag is a line with a name between a bracket and the first `]:` behind it. A
blank name means nobody unless a registered speaker has a blank name or alias. -/
theorem speakers_attributed {reg : Registry} {source : String} {script : Script}
    (h : parse reg source = .ok script) :
    List.Forall₂ (Attributed reg) (openings ((items source).map Located.item))
        (held Dialogue.elements script.dialogues) ∧
      (∀ above, lastTag (above ++ [.header []]) = lastTag above) ∧
      (∀ place line name rest, Item.formOf place line = .item (.speaker name rest) ↔
        ∃ after, line = '[' :: (name ++ ']' :: ':' :: after) ∧ ¬ [']', ':'] <:+: name ∧
          trim after = rest) ∧
      ∀ implicit speakers name, reg = Registry.ofSpeakers implicit speakers →
        allBlank name.toList = true →
        (reg.resolve name = none ↔
          ∀ s ∈ speakers, ∀ claim ∈ s.name :: s.aliases, allBlank claim.toList = false) := by
  refine ⟨?_, fun above => ?_, fun _ _ _ _ => Item.formOf_eq_speaker_iff, ?_⟩
  · have horphan := (parse_eq_ok_iff.mp ⟨script, h⟩).1
    have hbefore := (Section.orphan?_eq_none_iff.mp horphan).2
    have hread : ∀ i ∈ items source, i.item.Read := read_of_mem_items source
    rw [(dialogues_of_parse h).1, partsOf_ofSource]
    rw [← partsOf_fst, partsOf_ofSource] at hbefore
    exact Section.attributed_openings hread hbefore
  · exact lastTag_concat rfl above
  · rintro implicit speakers name rfl hname
    exact Registry.resolve_blank_eq_none_iff hname

/-! A header without a key between two elements, tags that name nobody, and a second dialogue. -/

def voices : Registry :=
  Registry.ofSpeakers false [⟨"Ann", ["a."], none⟩, ⟨"Bob", [], none⟩]

def chatter : String :=
  "# a\n[A.]: One\n#\nTwo\n\x7bx\x7d=> b\n* Go -> b\n\n[Eve]:\n\nThree\n[bob]:\nFour\n" ++
    "[ ]: Five\n# b\nSix\n[]]:x]: Seven\n"

/-- Every element with its key, its text and its speaker. -/
theorem chatter_attributed :
    ∃ script, parse voices chatter = .ok script ∧
      List.Forall₂ (Attributed voices) (openings ((items chatter).map Located.item))
        (held Dialogue.elements script.dialogues) ∧
      (held Dialogue.elements script.dialogues).map
          (fun p => (p.1, p.2.text, p.2.speaker.map Speaker.name)) =
        [(some "a", "One", some "Ann"), (some "a", "Two", some "Ann"), (some "a", "", none),
          (some "a", "Three", none), (some "a", "Four", some "Bob"), (some "a", "Five", none),
          (some "b", "Six", none), (some "b", "x]: Seven", none)] := by
  have hparse : parse voices chatter = .ok (reading voices chatter) :=
    parse_eq_ok voices (by decide +kernel) (by decide +kernel)
  exact ⟨_, hparse, (speakers_attributed hparse).1, by decide +kernel⟩

/-- A registered speaker may have a blank alias, and then an empty tag is a tag like any other. -/
theorem blank_alias_speaks :
    ∃ script, parse (Registry.ofSpeakers false [⟨"Bob", [""], none⟩]) "# k\n[]: hi\n" =
        .ok script ∧
      (held Dialogue.elements script.dialogues).map (fun p => (p.2.text, p.2.speaker)) =
        [("hi", some ⟨"Bob", [""], none⟩)] :=
  ⟨_, parse_eq_ok _ (by decide +kernel) (by decide +kernel), by decide +kernel⟩

end Script

end Parley
