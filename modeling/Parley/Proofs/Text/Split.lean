import Mathlib.Algebra.Ring.Nat
import Mathlib.Data.List.Infix
import Parley.Text.Span
import Parley.Text.Split

/-!
# What a cut finds

Cutting at a character undoes joining with it. A cut at a mark finds the mark behind any text
that cannot hold it.

## Implementation notes

A mark of two characters can straddle two parts of a text only where the first part ends in its
first character and the second begins with its second. The written forms set something else
between any two parts, so `pair_infix_append_cons` settles what they may hold.
-/

namespace Parley.Text

/-! ### Cutting at a character -/

/-- Cutting at a character is what the library has for lists. -/
theorem splitOn_eq (sep : Char) (cs : List Char) : splitOn sep cs = cs.splitOn sep := by
  induction cs with
  | nil => rfl
  | cons c cs ih =>
      have hne := List.splitOn_ne_nil sep cs
      rw [splitOn, ih, List.splitOn_cons_eq_if_modifyHead]
      by_cases hc : c = sep
      · simp [hc]
      · cases hpieces : cs.splitOn sep with
        | nil => exact absurd hpieces hne
        | cons piece pieces => simp [hc]

/-- Nothing but the separators is lost in cutting. -/
theorem joinWith_splitOn (sep : Char) (cs : List Char) : joinWith [sep] (splitOn sep cs) = cs := by
  rw [joinWith, splitOn_eq, List.intercalate_splitOn]

/-- Pieces without the separator are found again. -/
theorem splitOn_joinWith {sep : Char} {pieces : List (List Char)} (hne : pieces ≠ [])
    (h : ∀ piece ∈ pieces, sep ∉ piece) : splitOn sep (joinWith [sep] pieces) = pieces := by
  rw [joinWith, splitOn_eq, List.splitOn_intercalate sep h hne]

theorem splitOn_of_notMem {sep : Char} {cs : List Char} (h : sep ∉ cs) :
    splitOn sep cs = [cs] := by
  rw [splitOn_eq, List.splitOn_eq_singleton h]

theorem infix_joinWith_of_mem (sep : List Char) {piece : List Char} {pieces : List (List Char)}
    (h : piece ∈ pieces) : piece <:+: joinWith sep pieces := by
  unfold joinWith
  induction pieces with
  | nil => simp at h
  | cons first rest ih =>
      cases rest with
      | nil => simp_all
      | cons second rest =>
          rw [List.intercalate_cons_cons]
          rcases List.mem_cons.mp h with rfl | hrest
          · exact ⟨[], sep ++ sep.intercalate (second :: rest), by simp⟩
          · exact (ih hrest).trans (List.suffix_append _ _).isInfix

theorem notMem_joinWith {c : Char} {sep : List Char} {pieces : List (List Char)} (hsep : c ∉ sep)
    (h : ∀ piece ∈ pieces, c ∉ piece) : c ∉ joinWith sep pieces := by
  unfold joinWith
  induction pieces with
  | nil => simp
  | cons first rest ih =>
      have hrest := ih fun piece hp => h piece (List.mem_cons_of_mem _ hp)
      cases rest with
      | nil => simpa using h first List.mem_cons_self
      | cons second rest =>
          rw [List.intercalate_cons_cons, List.mem_append, List.mem_append]
          simp only [h first List.mem_cons_self, hsep, hrest, or_self, not_false_eq_true]

theorem infix_of_mem_splitOn {sep : Char} {piece cs : List Char} (h : piece ∈ splitOn sep cs) :
    piece <:+: cs := by
  have hpart := infix_joinWith_of_mem [sep] h
  rwa [joinWith_splitOn] at hpart

theorem notMem_of_mem_splitOn {sep : Char} {piece cs : List Char} (h : piece ∈ splitOn sep cs) :
    sep ∉ piece := by
  induction cs generalizing piece with
  | nil => simp_all [splitOn]
  | cons c cs ih =>
      rw [splitOn] at h
      by_cases hc : c = sep
      · rw [if_pos hc] at h
        rcases List.mem_cons.mp h with rfl | hrest
        · exact List.not_mem_nil
        · exact ih hrest
      · rw [if_neg hc] at h
        cases hpieces : splitOn sep cs with
        | nil => exact absurd hpieces (splitOn_ne_nil sep cs)
        | cons first rest =>
            rw [hpieces] at h ih
            rcases List.mem_cons.mp h with rfl | hrest
            · simp [ih List.mem_cons_self, Ne.symm hc]
            · exact ih (List.mem_cons_of_mem _ hrest)

/-- A separator divides the cut of a text into those of its parts. -/
theorem splitOn_append (sep : Char) (as bs : List Char) :
    splitOn sep (as ++ sep :: bs) = splitOn sep as ++ splitOn sep bs := by
  induction as with
  | nil => simp only [List.nil_append, splitOn, if_true, List.singleton_append]
  | cons c as ih =>
      rw [List.cons_append, splitOn, splitOn, ih]
      by_cases hc : c = sep
      · simp only [hc, if_true, List.cons_append]
      · simp only [hc, if_false]
        cases hpieces : splitOn sep as with
        | nil => exact absurd hpieces (splitOn_ne_nil sep as)
        | cons piece pieces => rfl

/-- There is one piece more than there are separators. -/
theorem length_splitOn (sep : Char) (cs : List Char) :
    (splitOn sep cs).length = cs.count sep + 1 := by
  induction cs with
  | nil => rfl
  | cons c cs ih =>
      rw [splitOn]
      by_cases hc : c = sep
      · simp only [hc, if_true, List.length_cons, ih, List.count_cons_self]
      · rw [if_neg hc, List.count_cons_of_ne hc, ← ih]
        cases hpieces : splitOn sep cs with
        | nil => exact absurd hpieces (splitOn_ne_nil sep cs)
        | cons piece pieces => rfl

/-- Every piece and a separator behind it; the last separator is one too many. -/
theorem sum_byteLength_splitOn (sep : Char) (cs : List Char) :
    ((splitOn sep cs).map fun piece => byteLength piece + sep.utf8Size).sum =
      byteLength cs + sep.utf8Size := by
  induction cs with
  | nil => rfl
  | cons c cs ih =>
      rw [splitOn]
      by_cases hc : c = sep
      · simp only [hc, if_true, List.map_cons, List.sum_cons, ih, byteLength_nil, byteLength_cons]
        omega
      · rw [if_neg hc]
        cases hpieces : splitOn sep cs with
        | nil => exact absurd hpieces (splitOn_ne_nil sep cs)
        | cons piece pieces =>
            rw [hpieces, List.map_cons, List.sum_cons] at ih
            simp only [List.map_cons, List.sum_cons, byteLength_cons]
            omega

/-! ### Marks of two characters -/

theorem pair_infix_cons {a b c : Char} (ha : c ≠ a) (cs : List Char) :
    [a, b] <:+: c :: cs ↔ [a, b] <:+: cs := by
  rw [List.infix_cons_iff, List.cons_prefix_cons]
  simp [Ne.symm ha]

theorem pair_infix_append_cons {a b c : Char} (ha : c ≠ a) (hb : c ≠ b) (as bs : List Char) :
    [a, b] <:+: as ++ c :: bs ↔ [a, b] <:+: as ∨ [a, b] <:+: bs := by
  induction as with
  | nil => simp [pair_infix_cons ha]
  | cons d as ih =>
      have hprefix : [a, b] <+: d :: (as ++ c :: bs) ↔ [a, b] <+: d :: as := by
        cases as with
        | nil => simp [Ne.symm hb]
        | cons e as => simp
      rw [List.cons_append, List.infix_cons_iff, hprefix, ih, List.infix_cons_iff, or_assoc]

/-! ### Cutting at a mark -/

theorem dropMark?_eq_none_iff {mark cs : List Char} : dropMark? mark cs = none ↔ ¬ mark <+: cs := by
  constructor
  · rintro hnone ⟨rest, rfl⟩
    simp [dropMark?_eq_some_iff.mpr rfl] at hnone
  · intro hprefix
    cases hdrop : dropMark? mark cs with
    | none => rfl
    | some rest => exact absurd ⟨rest, (dropMark?_eq_some_iff.mp hdrop).symm⟩ hprefix

theorem breakOn?_append {mark : List Char} (hne : mark ≠ []) (after : List Char) :
    breakOn? mark (mark ++ after) = some ([], after) := by
  cases mark with
  | nil => exact absurd rfl hne
  | cons m mark =>
      rw [List.cons_append, breakOn?, ← List.cons_append, dropMark?_eq_some_iff.mpr rfl]

theorem breakOn?_cons {mark cs : List Char} {c : Char} (h : ¬ mark <+: c :: cs) :
    breakOn? mark (c :: cs) = (breakOn? mark cs).map fun p => (c :: p.1, p.2) := by
  rw [breakOn?, dropMark?_eq_none_iff.mpr h]

theorem breakOn?_eq_none {mark cs : List Char} (h : ¬ mark <:+: cs) : breakOn? mark cs = none := by
  induction cs with
  | nil =>
      have hne : mark ≠ [] := fun hnil => h (by simp [hnil])
      simp [breakOn?, hne]
  | cons c cs ih =>
      have hprefix : ¬ mark <+: c :: cs := fun hp => h hp.isInfix
      have hrest : ¬ mark <:+: cs := fun hi => h (List.infix_cons hi)
      rw [breakOn?_cons hprefix, ih hrest, Option.map_none]

/-- Before its first character a mark cannot begin. -/
theorem breakOn?_skip {m : Char} {before : List Char} (h : m ∉ before) (mark rest : List Char) :
    breakOn? (m :: mark) (before ++ rest) =
      (breakOn? (m :: mark) rest).map fun p => (before ++ p.1, p.2) := by
  induction before with
  | nil => simp
  | cons c before ih =>
      simp only [List.mem_cons, not_or] at h
      have hprefix : ¬ m :: mark <+: c :: (before ++ rest) := by
        rw [List.cons_prefix_cons]
        intro hp
        exact h.1 hp.1
      rw [List.cons_append, breakOn?_cons hprefix, ih h.2, Option.map_map]
      rfl

/-- A mark is found behind a text without the character it begins with. -/
theorem breakOn?_at_first {m : Char} {before : List Char} (h : m ∉ before)
    (mark after : List Char) :
    breakOn? (m :: mark) (before ++ (m :: mark ++ after)) = some (before, after) := by
  rw [breakOn?_skip h, breakOn?_append (List.cons_ne_nil _ _)]
  simp

theorem breakOn?_eq_none_of_notMem {m : Char} {cs : List Char} (h : m ∉ cs) (mark : List Char) :
    breakOn? (m :: mark) cs = none := by
  refine breakOn?_eq_none fun hpart => h ?_
  exact hpart.subset List.mem_cons_self

/-- A mark of two characters does not begin in front of its first occurrence. -/
theorem pair_not_begins {a b c : Char} (hab : a ≠ b) {before : List Char}
    (h : ¬ [a, b] <:+: c :: before) (after : List Char) :
    ¬ [a, b] <+: c :: (before ++ a :: b :: after) := by
  intro hp
  refine h (List.IsPrefix.isInfix ?_)
  cases before with
  | nil => simp_all [List.cons_prefix_cons]
  | cons d before => simpa [List.cons_prefix_cons] using hp

/-- A mark of two characters is found behind a text that does not hold it. -/
theorem breakOn?_pair {a b : Char} (hab : a ≠ b) {before : List Char}
    (h : ¬ [a, b] <:+: before) (after : List Char) :
    breakOn? [a, b] (before ++ a :: b :: after) = some (before, after) := by
  induction before with
  | nil => exact breakOn?_append (List.cons_ne_nil _ _) after
  | cons c before ih =>
      have hrest : ¬ [a, b] <:+: before := fun hi => h (List.infix_cons hi)
      rw [List.cons_append, breakOn?_cons (pair_not_begins hab h after), ih hrest]
      rfl

/-- Cut at a mark, a text is what stands before it, the mark, and what stands behind. -/
theorem eq_append_of_breakOn? {mark cs before after : List Char}
    (h : breakOn? mark cs = some (before, after)) : cs = before ++ (mark ++ after) := by
  induction cs generalizing before with
  | nil =>
      rw [breakOn?] at h
      split at h
      · next hmark =>
          obtain ⟨rfl, rfl⟩ := Prod.mk.inj (Option.some.inj h)
          simpa using hmark
      · contradiction
  | cons c cs ih =>
      rw [breakOn?] at h
      cases hdrop : dropMark? mark (c :: cs) with
      | some rest =>
          rw [hdrop] at h
          obtain ⟨rfl, rfl⟩ := Prod.mk.inj (Option.some.inj h)
          rw [List.nil_append]
          exact dropMark?_eq_some_iff.mp hdrop
      | none =>
          rw [hdrop, Option.map_eq_some_iff] at h
          obtain ⟨⟨start, rest⟩, hbreak, heq⟩ := h
          obtain ⟨rfl, rfl⟩ := Prod.mk.inj heq
          rw [ih hbreak, List.cons_append]

/-- The cut is at the first occurrence of the mark. -/
theorem not_infix_of_breakOn? {mark cs before after : List Char} (hne : mark ≠ [])
    (h : breakOn? mark cs = some (before, after)) : ¬ mark <:+: before := by
  induction cs generalizing before with
  | nil => simp [breakOn?, hne] at h
  | cons c cs ih =>
      by_cases hprefix : mark <+: c :: cs
      · obtain ⟨rest, hrest⟩ := hprefix
        rw [← hrest, breakOn?_append hne] at h
        obtain ⟨rfl, rfl⟩ := Prod.mk.inj (Option.some.inj h)
        simpa using hne
      · rw [breakOn?_cons hprefix, Option.map_eq_some_iff] at h
        obtain ⟨⟨start, rest⟩, hbreak, heq⟩ := h
        obtain ⟨rfl, rfl⟩ := Prod.mk.inj heq
        have hstart : c :: start <+: c :: cs := by
          rw [eq_append_of_breakOn? hbreak, List.prefix_cons_inj]
          exact List.prefix_append _ _
        rw [List.infix_cons_iff, not_or]
        exact ⟨fun hmark => hprefix (hmark.trans hstart), ih hbreak⟩

/-- Where no mark is found there is none. -/
theorem not_infix_of_breakOn?_eq_none {mark cs : List Char} (h : breakOn? mark cs = none) :
    ¬ mark <:+: cs := by
  induction cs with
  | nil =>
      rintro ⟨start, rest, heq⟩
      simp_all [breakOn?]
  | cons c cs ih =>
      rw [breakOn?] at h
      cases hdrop : dropMark? mark (c :: cs) with
      | some rest => simp [hdrop] at h
      | none =>
          rw [hdrop, Option.map_eq_none_iff] at h
          rw [List.infix_cons_iff, not_or]
          exact ⟨dropMark?_eq_none_iff.mp hdrop, ih h⟩

/-! ### The last character -/

theorem eq_append_of_dropLast? {mark : Char} {cs front : List Char}
    (h : dropLast? mark cs = some front) : cs = front ++ [mark] := by
  rw [dropLast?] at h
  split at h
  · next hlast =>
      rw [← Option.some.inj h]
      exact (List.dropLast_append_getLast? mark hlast).symm
  · contradiction

theorem dropLast?_append (mark : Char) (cs : List Char) :
    dropLast? mark (cs ++ [mark]) = some cs := by
  simp [dropLast?]

end Parley.Text
