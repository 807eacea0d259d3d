import Parley.Script.Basic

/-!
# Items that fall into sections

How the items behind a header add up to a dialogue: which of them carry flags and exits, how text
and choices grow an element, and what is reported of each in front of any further items.
-/

namespace Parley

namespace Item

/-- The items that elements are made of, and the breaks between them. -/
def isShown : Item → Bool
  | .blank | .speaker _ _ | .text _ | .choice _ => true
  | _ => false

/-- Whether an item is a header, with a key or without. -/
def isHeader : Item → Bool
  | .header _ => true
  | _ => false

end Item

namespace Section

variable {reg : Registry}

/-! ### Cutting at headers -/

theorem divide_append {items : List Located} (h : ∀ i ∈ items, i.item.isHeader = false)
    (below : List Located) :
    divide (items ++ below) = (items ++ (divide below).1, (divide below).2) := by
  induction items with
  | nil => rfl
  | cons i items ih =>
      have hitem := h i List.mem_cons_self
      obtain ⟨place, item⟩ := i
      rw [List.cons_append, divide, ih fun j hj => h j (List.mem_cons_of_mem _ hj)]
      cases item with
      | header key => simp [Item.isHeader] at hitem
      | _ => rfl

/-- A header with a key begins a section. -/
theorem divide_header {key : List Char} (hkey : key ≠ []) (place : Place) (items : List Located) :
    divide (⟨place, .header key⟩ :: items) =
      ([], ⟨place, key, (divide items).1⟩ :: (divide items).2) := by
  cases key with
  | nil => exact absurd rfl hkey
  | cons c key => rfl

/-- No key is refused where all are distinct and none was there before. -/
theorem repeated?_eq_none_iff {earlier : List (List Char)} {sections : List Section} :
    repeated? earlier sections = none ↔
      (sections.map Section.key).Nodup ∧ ∀ s ∈ sections, s.key ∉ earlier := by
  induction sections generalizing earlier with
  | nil => simp [repeated?]
  | cons s sections ih =>
      rw [repeated?]
      by_cases hmem : s.key ∈ earlier
      · simp [hmem]
      · rw [if_neg (by simpa using hmem), ih, List.map_cons, List.nodup_cons]
        constructor
        · rintro ⟨hnodup, hfresh⟩
          refine ⟨⟨?_, hnodup⟩, ?_⟩
          · intro hlater
            obtain ⟨t, ht, hkey⟩ := List.mem_map.mp hlater
            exact hfresh t ht (by simp [hkey])
          · intro t ht
            rcases List.mem_cons.mp ht with rfl | hrest
            · exact hmem
            · intro hearlier
              exact hfresh t hrest (List.mem_cons_of_mem _ hearlier)
        · rintro ⟨⟨hlater, hnodup⟩, hfresh⟩
          refine ⟨hnodup, fun t ht => ?_⟩
          rw [List.mem_cons, not_or]
          refine ⟨fun hkey => hlater ?_, hfresh t (List.mem_cons_of_mem _ ht)⟩
          exact hkey ▸ List.mem_map_of_mem ht

/-! ### Flags and exits -/

theorem union_empty (f : Flags) : f.union {} = f := by
  simp [Flags.union]

theorem foldl_union_of_flagless {items : List Item} (h : ∀ i ∈ items, itemFlags i = {})
    (f : Flags) : (items.map itemFlags).foldl Flags.union f = f := by
  induction items generalizing f with
  | nil => rfl
  | cons i items ih =>
      rw [List.map_cons, List.foldl_cons, h i List.mem_cons_self, union_empty]
      exact ih (fun j hj => h j (List.mem_cons_of_mem _ hj)) f

theorem itemFlags_of_isShown {i : Item} (h : i.isShown = true) : itemFlags i = {} := by
  cases i <;> simp_all [Item.isShown, itemFlags]

theorem itemExit_of_isShown {i : Item} (h : i.isShown = true) : itemExit i = none := by
  cases i <;> simp_all [Item.isShown, itemExit]

theorem filterMap_itemExit_of_isShown {items : List Item} (h : ∀ i ∈ items, i.isShown = true) :
    items.filterMap itemExit = [] := by
  rw [List.filterMap_eq_nil_iff]
  intro i hi
  exact itemExit_of_isShown (h i hi)

/-! ### Elements -/

/-- Lines of text go to the element that is open. -/
theorem elementsFrom_texts (speaker : Option Speaker) (d : Draft) (lines : List (List Char))
    (below : List Item) :
    elementsFrom reg speaker (some d) (lines.map Item.text ++ below) =
      elementsFrom reg speaker (some { d with lines := d.lines ++ lines }) below := by
  induction lines generalizing d with
  | nil => simp
  | cons line lines ih =>
      rw [List.map_cons, List.cons_append, elementsFrom, withText, ih]
      simp [Draft.addLine]

/-- Choices go to the element that is open. -/
theorem elementsFrom_choices {α : Type} {body : α → List Char} {choice : α → Choice}
    {as : List α} (h : ∀ a ∈ as, readChoice (body a) = .ok (choice a))
    (speaker : Option Speaker) (d : Draft) (below : List Item) :
    elementsFrom reg speaker (some d) (as.map (fun a => Item.choice (body a)) ++ below) =
      elementsFrom reg speaker (some { d with choices := d.choices ++ as.map choice }) below := by
  induction as generalizing d with
  | nil => simp
  | cons a as ih =>
      have hread := h a List.mem_cons_self
      rw [List.map_cons, List.cons_append, elementsFrom, withChoice, Option.map_some]
      simp only [hread]
      rw [ih fun b hb => h b (List.mem_cons_of_mem _ hb)]
      simp [Draft.addChoice]

/-! ### Reports -/

/-- Nothing is wrong with the item, and elements stay open or closed behind it. -/
structure IsQuiet (reg : Registry) (isOpen : Bool) (i : Item) : Prop where
  problems : itemProblems reg isOpen i = []
  body : bodyDiagnostics i = []
  opens : opens isOpen i = isOpen

theorem diagnosticsFrom_quiet {isOpen : Bool} {items : List Located}
    (h : ∀ i ∈ items, IsQuiet reg isOpen i.item) (below : List Located) :
    diagnosticsFrom reg isOpen (items ++ below) = diagnosticsFrom reg isOpen below := by
  induction items with
  | nil => rfl
  | cons i items ih =>
      have hquiet := h i List.mem_cons_self
      rw [List.cons_append, diagnosticsFrom, hquiet.problems, hquiet.body, hquiet.opens,
        ih fun j hj => h j (List.mem_cons_of_mem _ hj)]
      rfl

end Section

end Parley
