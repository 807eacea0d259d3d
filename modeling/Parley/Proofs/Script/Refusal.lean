import Mathlib.Data.List.Nodup
import Parley.Proofs.Script.Moving
import Parley.Proofs.Script.Sections

/-!
# What refuses a script

A script is refused as a whole for two reasons only: something in front of its first dialogue that
would belong to one, or a key that two of its headers have. Everything else that is wrong with it
is reported, and the rest is read.

A choice in front of the first dialogue does not refuse the script. It is reported as a choice
without an element, like one behind a blank line.
-/

namespace Parley

namespace Item

/-- The key of a header that begins a dialogue. -/
def key? : Item → Option (List Char)
  | .header (c :: key) => some (c :: key)
  | _ => none

/-- What may not stand in front of the first dialogue, by the name that an error gives it. -/
def content? : Item → Option Content
  | .speaker _ _ | .text _ => some .text
  | .flags _ => some .flags
  | .redirect _ _ => some .transition
  | .code _ _ | .openCode _ => some .code
  | .blank | .header _ | .choice _ => none

theorem key?_eq_some_iff {i : Item} {key : List Char} :
    i.key? = some key ↔ i = .header key ∧ key ≠ [] := by
  constructor
  · intro h
    cases i with
    | header name =>
        cases name with
        | nil => cases h
        | cons c name =>
            cases h
            exact ⟨rfl, List.cons_ne_nil c name⟩
    | _ => cases h
  · rintro ⟨rfl, hkey⟩
    cases key with
    | nil => exact absurd rfl hkey
    | cons c key => rfl

end Item

namespace Located

/-- The error that an item makes in front of the first dialogue. -/
def orphan? (i : Located) : Option ScriptError :=
  i.item.content?.map fun content => .orphan content i.place.line

/-- A header with a key, as an error names it. -/
def heading? (i : Located) : Option (String × Nat) :=
  i.item.key?.map fun key => (String.ofList key, i.place.line)

end Located

/-- A key comes again on a line, and no key has come again before. -/
def RepeatsAt (headings : List (String × Nat)) (key : String) (line : Nat) : Prop :=
  ∃ before after, headings = before ++ (key, line) :: after ∧
    (before.map Prod.fst).Nodup ∧ key ∈ before.map Prod.fst

namespace Section

/-! ### In front of the first dialogue -/

/-- Text that has begun refuses the script wherever it ends, and so does any content. -/
theorem orphan?_eq_none_iff {textLine : Option Nat} {items : List Located} :
    orphan? textLine items = none ↔
      textLine = none ∧ ∀ i ∈ items, i.item.content? = none := by
  induction items generalizing textLine with
  | nil => simp [orphan?]
  | cons i items ih =>
      obtain ⟨place, item⟩ := i
      rw [List.forall_mem_cons]
      cases item <;> cases textLine <;> simp [orphan?, ih, Item.content?]

/-- The error is that of some item, or of the text that had begun. -/
theorem mem_of_orphan? {textLine : Option Nat} {items : List Located} {error : ScriptError}
    (h : orphan? textLine items = some error) :
    error ∈ (textLine.map (ScriptError.orphan .text)).toList ++
      items.filterMap Located.orphan? := by
  induction items generalizing textLine with
  | nil => simpa [orphan?] using h
  | cons i items ih =>
      obtain ⟨place, item⟩ := i
      have htext : Located.orphan? ⟨place, item⟩ = some (.orphan .text place.line) →
          (⟨place, item⟩ :: items).filterMap Located.orphan? =
            .orphan .text place.line :: items.filterMap Located.orphan? :=
        List.filterMap_cons_some
      cases item with
      | choice body =>
          rw [List.filterMap_cons_none rfl]
          exact ih h
      | text line =>
          rw [htext rfl]
          cases textLine with
          | none => exact ih h
          | some begun =>
              obtain hbegun | hlater := List.mem_append.mp (ih h)
              · exact List.mem_append_left _ hbegun
              · exact List.mem_append_right _ (List.mem_cons_of_mem _ hlater)
      | speaker name rest =>
          rw [htext rfl]
          cases textLine with
          | none => exact ih h
          | some begun =>
              cases h
              exact List.mem_cons_self
      | blank | header key =>
          rw [List.filterMap_cons_none rfl]
          cases textLine with
          | none => exact ih h
          | some begun =>
              cases h
              exact List.mem_cons_self
      | flags list | redirect condition key | code condition body | openCode condition =>
          cases h
          exact List.mem_append_right _ List.mem_cons_self

/-- Whatever is refused as an orphan is content of some item, told with the line of the item. -/
theorem exists_of_orphan? {items : List Located} {error : ScriptError}
    (h : orphan? none items = some error) :
    ∃ i ∈ items, ∃ content, i.item.content? = some content ∧
      error = .orphan content i.place.line := by
  obtain ⟨i, hi, herror⟩ := List.mem_filterMap.mp (mem_of_orphan? h)
  obtain ⟨content, hcontent, rfl⟩ := Option.map_eq_some_iff.mp herror
  exact ⟨i, hi, content, hcontent, rfl⟩

/-! ### Keys that repeat -/

/-- The key of a section and the line of its header. -/
def heading (s : Section) : String × Nat :=
  (String.ofList s.key, s.place.line)

/-- The same where keys stand in front of all headings: none of them may come again. -/
def RepeatsBehind (earlier : List String) (headings : List (String × Nat)) (key : String)
    (line : Nat) : Prop :=
  ∃ before after, headings = before ++ (key, line) :: after ∧ (before.map Prod.fst).Nodup ∧
    (∀ k ∈ before.map Prod.fst, k ∉ earlier) ∧
    (key ∈ before.map Prod.fst ∨ key ∈ earlier)

section Repeats

variable {earlier : List String} {first : String × Nat} {headings : List (String × Nat)}
  {key : String} {line : Nat}

theorem repeatsBehind_cons_of_mem (h : first.1 ∈ earlier) :
    RepeatsBehind earlier (first :: headings) key line ↔ first = (key, line) := by
  constructor
  · rintro ⟨before, after, hsplit, -, hfresh, -⟩
    cases before with
    | nil => exact (List.cons.inj hsplit).1
    | cons other before =>
        obtain ⟨rfl, -⟩ := List.cons.inj hsplit
        exact absurd h (hfresh _ List.mem_cons_self)
  · rintro rfl
    exact ⟨[], headings, rfl, List.nodup_nil, List.forall_mem_nil _, .inr h⟩

/-- A key that is new counts as an earlier one from there on. -/
theorem repeatsBehind_cons_of_notMem (h : first.1 ∉ earlier) :
    RepeatsBehind earlier (first :: headings) key line ↔
      RepeatsBehind (first.1 :: earlier) headings key line := by
  constructor
  · rintro ⟨before, after, hsplit, hnodup, hfresh, hkey⟩
    cases before with
    | nil =>
        cases (List.cons.inj hsplit).1
        exact absurd hkey (not_or.mpr ⟨List.not_mem_nil, h⟩)
    | cons other before =>
        obtain ⟨rfl, hrest⟩ := List.cons.inj hsplit
        obtain ⟨hhead, hnodup⟩ := List.nodup_cons.mp hnodup
        refine ⟨before, after, hrest, hnodup, fun k hk hearlier => ?_, ?_⟩
        · rcases List.mem_cons.mp hearlier with rfl | hearlier
          · exact hhead hk
          · exact hfresh k (List.mem_cons_of_mem _ hk) hearlier
        · rw [List.map_cons, List.mem_cons] at hkey
          rw [List.mem_cons]
          tauto
  · rintro ⟨before, after, hsplit, hnodup, hfresh, hkey⟩
    refine ⟨first :: before, after, by rw [hsplit]; rfl, ?_, ?_, ?_⟩
    · refine List.nodup_cons.mpr ⟨fun hfirst => ?_, hnodup⟩
      exact hfresh _ hfirst List.mem_cons_self
    · refine List.forall_mem_cons.mpr ⟨h, fun k hk hearlier => ?_⟩
      exact hfresh k hk (List.mem_cons_of_mem _ hearlier)
    · rw [List.mem_cons] at hkey
      rw [List.map_cons, List.mem_cons]
      tauto

end Repeats

/-- The first key that was there before is the one repeated. -/
theorem repeated?_eq_some_iff {earlier : List (List Char)} {sections : List Section}
    {key : String} {line : Nat} :
    repeated? earlier sections = some (.duplicateKey key line) ↔
      RepeatsBehind (earlier.map String.ofList) (sections.map heading) key line := by
  induction sections generalizing earlier with
  | nil => simp [repeated?, RepeatsBehind]
  | cons s sections ih =>
      have hmem : s.key ∈ earlier ↔ s.heading.1 ∈ earlier.map String.ofList :=
        (List.mem_map_of_injective fun _ _ h => String.ofList_inj.mp h).symm
      rw [repeated?, List.map_cons]
      by_cases hrepeat : s.key ∈ earlier
      · rw [if_pos (by simpa using hrepeat), repeatsBehind_cons_of_mem (hmem.mp hrepeat)]
        simp [heading]
      · rw [if_neg (by simpa using hrepeat), ih,
          repeatsBehind_cons_of_notMem (mt hmem.mpr hrepeat)]
        rfl

theorem exists_of_repeated? {earlier : List (List Char)} {sections : List Section}
    {error : ScriptError} (h : repeated? earlier sections = some error) :
    ∃ key line, error = .duplicateKey key line := by
  induction sections generalizing earlier with
  | nil => cases h
  | cons s sections ih =>
      rw [repeated?] at h
      split at h
      · exact ⟨_, _, (Option.some.inj h).symm⟩
      · exact ih h

theorem repeatsAt_iff {sections : List Section} {key : String} {line : Nat} :
    repeated? [] sections = some (.duplicateKey key line) ↔
      RepeatsAt (sections.map heading) key line := by
  rw [repeated?_eq_some_iff]
  simp [RepeatsBehind, RepeatsAt]

/-- No key is repeated where all are distinct. -/
theorem nodup_headings_iff {sections : List Section} :
    repeated? [] sections = none ↔ ((sections.map heading).map Prod.fst).Nodup := by
  have hkeys : (sections.map heading).map Prod.fst =
      (sections.map key).map String.ofList := by
    rw [List.map_map, List.map_map]
    rfl
  rw [repeated?_eq_none_iff, hkeys,
    List.nodup_map_iff fun _ _ h => String.ofList_inj.mp h]
  simp

/-! ### Cutting at the headers with a key -/

/-- Only a header with a key begins a section. -/
theorem divide_cons {i : Located} (hkey : i.item.key? = none) (items : List Located) :
    divide (i :: items) = (i :: (divide items).1, (divide items).2) := by
  obtain ⟨place, item⟩ := i
  rw [divide]
  cases item with
  | header key =>
      cases key with
      | nil => rfl
      | cons c key => cases hkey
  | _ => rfl

theorem divide_fst (items : List Located) :
    (divide items).1 = items.takeWhile fun i => i.item.key?.isNone := by
  induction items with
  | nil => rfl
  | cons i items ih =>
      obtain ⟨place, item⟩ := i
      cases hkey : item.key? with
      | none =>
          rw [divide_cons hkey, List.takeWhile_cons_of_pos (by simp [hkey]), ih]
      | some key =>
          obtain ⟨rfl, hne⟩ := Item.key?_eq_some_iff.mp hkey
          rw [divide_header hne, List.takeWhile_cons_of_neg (by simp [hkey])]

/-- The sections have their headings from the headers with a key. -/
theorem map_heading_divide (items : List Located) :
    (divide items).2.map heading = items.filterMap Located.heading? := by
  induction items with
  | nil => rfl
  | cons i items ih =>
      obtain ⟨place, item⟩ := i
      cases hkey : item.key? with
      | none =>
          have hno : Located.heading? ⟨place, item⟩ = none := by rw [Located.heading?, hkey]; rfl
          rw [divide_cons hkey, List.filterMap_cons_none hno, ih]
      | some key =>
          obtain ⟨rfl, hne⟩ := Item.key?_eq_some_iff.mp hkey
          have hyes : Located.heading? ⟨place, .header key⟩ =
              some (String.ofList key, place.line) := by rw [Located.heading?, hkey]; rfl
          rw [divide_header hne, List.filterMap_cons_some hyes, List.map_cons, ih]
          rfl

end Section

namespace Script

/-! ### Whole scripts -/

/-- All that stands in a source outside of comments, in order; a block of code is one item. -/
def items (source : String) : List Located :=
  Item.gather none (Comment.clear false (Line.ofSource source.toList)).1

/-- What stands in front of the first header with a key. -/
def foreword (source : String) : List Located :=
  (items source).takeWhile fun i => i.item.key?.isNone

/-- The headers with a key and the lines they stand on. -/
def headings (source : String) : List (String × Nat) :=
  (items source).filterMap Located.heading?

theorem partsOf_ofSource (source : String) :
    partsOf (Line.ofSource source.toList) = Section.divide (items source) := rfl

theorem partsOf_fst (source : String) :
    (partsOf (Line.ofSource source.toList)).1 = foreword source :=
  Section.divide_fst _

theorem map_heading_partsOf (source : String) :
    (partsOf (Line.ofSource source.toList)).2.map Section.heading = headings source :=
  Section.map_heading_divide _

/-- A source is refused for what stands above its headers, or else for a key that repeats. -/
theorem parse_eq_error_iff {reg : Registry} {source : String} {error : ScriptError} :
    parse reg source = .error error ↔
      Section.orphan? none (foreword source) = some error ∨
        Section.orphan? none (foreword source) = none ∧
          Section.repeated? [] (partsOf (Line.ofSource source.toList)).2 = some error := by
  rw [← partsOf_fst]
  simp only [parse, partsOf]
  cases Section.orphan? none (Section.divide
      (Item.gather none (Comment.clear false (Line.ofSource source.toList)).1)).1 with
  | some found => simp
  | none =>
      cases Section.repeated? [] (Section.divide
          (Item.gather none (Comment.clear false (Line.ofSource source.toList)).1)).2 <;> simp

/-- A source is accepted where neither refuses it. -/
theorem parse_eq_ok_iff {reg : Registry} {source : String} :
    (∃ script, parse reg source = .ok script) ↔
      Section.orphan? none (foreword source) = none ∧
        Section.repeated? [] (partsOf (Line.ofSource source.toList)).2 = none := by
  constructor
  · rintro ⟨script, hparse⟩
    obtain ⟨-, horphan, hrepeated⟩ := eq_of_parse hparse
    rw [partsOf_fst] at horphan
    exact ⟨horphan, hrepeated⟩
  · rintro ⟨horphan, hrepeated⟩
    rw [← partsOf_fst] at horphan
    exact ⟨_, parse_eq_ok reg horphan hrepeated⟩

/-- A script is refused for content in front of its first dialogue exactly where such content is
there, choices aside; else for a key exactly where it comes again, by the first line on which one
does; and else it is accepted. -/
theorem refused_iff (reg : Registry) (source : String) :
    ((∃ content line, parse reg source = .error (.orphan content line)) ↔
      ∃ i ∈ foreword source, i.item.content?.isSome) ∧
    (∀ key line, parse reg source = .error (.duplicateKey key line) ↔
      (∀ i ∈ foreword source, i.item.content? = none) ∧
        RepeatsAt (headings source) key line) ∧
    ((∃ script, parse reg source = .ok script) ↔
      (∀ i ∈ foreword source, i.item.content? = none) ∧
        ((headings source).map Prod.fst).Nodup) := by
  have hforeword : Section.orphan? none (foreword source) = none ↔
      ∀ i ∈ foreword source, i.item.content? = none := by
    simp [Section.orphan?_eq_none_iff]
  refine ⟨⟨?_, ?_⟩, fun key line => ?_, ?_⟩
  · rintro ⟨content, line, herror⟩
    obtain horphan | ⟨-, hrepeated⟩ := parse_eq_error_iff.mp herror
    · obtain ⟨i, hi, found, hfound, -⟩ := Section.exists_of_orphan? horphan
      exact ⟨i, hi, Option.isSome_of_eq_some hfound⟩
    · obtain ⟨key, line, hkind⟩ := Section.exists_of_repeated? hrepeated
      cases hkind
  · rintro ⟨i, hi, hcontent⟩
    cases horphan : Section.orphan? none (foreword source) with
    | none => simp [hforeword.mp horphan i hi] at hcontent
    | some error =>
        obtain ⟨j, -, content, -, rfl⟩ := Section.exists_of_orphan? horphan
        exact ⟨content, j.place.line, parse_eq_error_iff.mpr (.inl horphan)⟩
  · rw [parse_eq_error_iff, hforeword, Section.repeatsAt_iff, map_heading_partsOf]
    constructor
    · rintro (horphan | hrepeats)
      · obtain ⟨j, -, content, -, hkind⟩ := Section.exists_of_orphan? horphan
        cases hkind
      · exact hrepeats
    · exact .inr
  · rw [parse_eq_ok_iff, hforeword, Section.nodup_headings_iff, map_heading_partsOf]

/-- A choice in front of all dialogues belongs to none of them, and refuses nothing. -/
theorem choice_before_dialogues :
    (foreword "* a -> b\n# k\n").map Located.item = [.choice " a -> b".toList] ∧
      ∃ script, parse Registry.implicitly "* a -> b\n# k\n" = .ok script ∧
        script.dialogues = [{ name := "k" }] ∧
        script.diagnostics.map Diagnostic.problem = [.choiceWithoutElement] :=
  ⟨rfl, _, rfl, rfl, rfl⟩

end Script

end Parley
