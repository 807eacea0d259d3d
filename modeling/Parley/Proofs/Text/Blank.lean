import Parley.Text.Blank

/-!
# What trimming leaves

A text without a blank at either end is left alone, and one blank more at an end makes no
difference to what is left.
-/

namespace Parley.Text

instance (cs : List Char) : Decidable (Trimmed cs) :=
  decidable_of_iff ((cs.head?.all fun c => !isBlank c) = true ∧
      (cs.getLast?.all fun c => !isBlank c) = true)
    (by simp [Trimmed, Option.all_eq_true])

@[simp]
theorem trimmed_nil : Trimmed [] := by
  simp [Trimmed]

theorem trimEnd_cons_of_ne_nil (c : Char) {cs : List Char} (h : trimEnd cs ≠ []) :
    trimEnd (c :: cs) = c :: trimEnd cs := by
  rw [trimEnd]
  cases hrest : trimEnd cs with
  | nil => exact absurd hrest h
  | cons d rest => rfl

theorem trimEnd_cons {c : Char} (hc : isBlank c = false) (cs : List Char) :
    trimEnd (c :: cs) = c :: trimEnd cs := by
  rw [trimEnd]
  cases hrest : trimEnd cs with
  | nil => simp [hc]
  | cons d rest => rfl

theorem trimEnd_eq_self {cs : List Char} (h : ∀ c ∈ cs.getLast?, isBlank c = false) :
    trimEnd cs = cs := by
  induction cs with
  | nil => rfl
  | cons c cs ih =>
      cases cs with
      | nil => simp [trimEnd, h c (by simp)]
      | cons d rest =>
          have hrest : trimEnd (d :: rest) = d :: rest := ih (by simpa using h)
          rw [trimEnd_cons_of_ne_nil c (by simp [hrest]), hrest]

theorem trimEnd_append_blank (cs : List Char) {b : Char} (hb : isBlank b = true) :
    trimEnd (cs ++ [b]) = trimEnd cs := by
  induction cs with
  | nil => simp [trimEnd, hb]
  | cons c cs ih => rw [List.cons_append, trimEnd, ih, trimEnd]

theorem trimStart_eq_self {cs : List Char} (h : ∀ c ∈ cs.head?, isBlank c = false) :
    trimStart cs = cs := by
  cases cs with
  | nil => rfl
  | cons c cs => simp [trimStart_cons, h c (by simp)]

/-- Trimming leaves a trimmed text as it is. -/
theorem trim_eq_self {cs : List Char} (h : Trimmed cs) : trim cs = cs := by
  rw [trim, trimStart_eq_self h.1, trimEnd_eq_self h.2]

theorem trim_blank_cons {b : Char} (hb : isBlank b = true) (cs : List Char) :
    trim (b :: cs) = trim cs := by
  rw [trim, trimStart_cons, if_pos hb, trim]

theorem trim_append_blank (cs : List Char) {b : Char} (hb : isBlank b = true) :
    trim (cs ++ [b]) = trim cs := by
  induction cs with
  | nil => simp [trim_blank_cons hb]
  | cons c cs ih =>
      by_cases hc : isBlank c = true
      · rw [List.cons_append, trim_blank_cons hc, trim_blank_cons hc, ih]
      · simp only [trim, List.cons_append, trimStart_cons, hc]
        exact trimEnd_append_blank (c :: cs) hb

@[simp]
theorem trim_space_cons (cs : List Char) : trim (' ' :: cs) = trim cs :=
  trim_blank_cons (by decide) cs

@[simp]
theorem trim_append_space (cs : List Char) : trim (cs ++ [' ']) = trim cs :=
  trim_append_blank cs (by decide)

theorem trimEnd_isPrefix (cs : List Char) : trimEnd cs <+: cs := by
  induction cs with
  | nil => exact List.prefix_rfl
  | cons c cs ih =>
      rw [trimEnd]
      cases hrest : trimEnd cs with
      | nil => by_cases hc : isBlank c = true <;> simp [hc]
      | cons d rest =>
          rw [hrest] at ih
          exact (List.prefix_cons_inj c).mpr ih

theorem trim_isInfix (cs : List Char) : trim cs <:+: cs :=
  (trimEnd_isPrefix _).isInfix.trans (List.dropWhile_suffix _).isInfix

theorem notMem_trim {c : Char} {cs : List Char} (h : c ∉ cs) : c ∉ trim cs :=
  fun hc => h ((trim_isInfix cs).subset hc)

/-- What trimming takes from the end are blanks. -/
theorem exists_eq_append_trimEnd (cs : List Char) :
    ∃ trail, cs = trimEnd cs ++ trail ∧ ∀ c ∈ trail, isBlank c = true := by
  induction cs with
  | nil => exact ⟨[], rfl, by simp⟩
  | cons c cs ih =>
      obtain ⟨trail, htrail, hblank⟩ := ih
      by_cases hrest : trimEnd cs = []
      · rw [hrest, List.nil_append] at htrail
        rw [trimEnd, hrest]
        by_cases hc : isBlank c = true
        · exact ⟨c :: cs, by simp [hc], by simpa [hc, htrail] using hblank⟩
        · exact ⟨cs, by simp [hc], by simpa [htrail] using hblank⟩
      · rw [trimEnd_cons_of_ne_nil c hrest]
        exact ⟨trail, congrArg (c :: ·) htrail, hblank⟩

theorem isBlank_of_mem_getLast?_trimEnd (cs : List Char) :
    ∀ c ∈ (trimEnd cs).getLast?, isBlank c = false := by
  induction cs with
  | nil => simp [trimEnd]
  | cons c cs ih =>
      rw [trimEnd]
      cases hrest : trimEnd cs with
      | nil => by_cases hc : isBlank c = true <;> simp [hc]
      | cons d rest =>
          rw [hrest] at ih
          simpa using ih

/-- What is left by trimming has no blanks at its ends. -/
theorem trimmed_trim (cs : List Char) : Trimmed (trim cs) := by
  refine ⟨?_, isBlank_of_mem_getLast?_trimEnd _⟩
  intro c hc
  have hprefix : [c] <+: trimStart cs :=
    (List.singleton_prefix_iff_head?_eq_some.mpr hc).trans (trimEnd_isPrefix _)
  have hstart := List.head?_dropWhile_not isBlank cs
  rw [show (cs.dropWhile isBlank).head? = some c from
    List.singleton_prefix_iff_head?_eq_some.mp hprefix] at hstart
  exact hstart

/-- Trimming takes blanks off both ends and nothing else. -/
theorem exists_eq_append_trim (cs : List Char) :
    ∃ lead trail, cs = lead ++ (trim cs ++ trail) ∧ (∀ c ∈ lead, isBlank c = true) ∧
      ∀ c ∈ trail, isBlank c = true := by
  obtain ⟨trail, htrail, hblank⟩ := exists_eq_append_trimEnd (trimStart cs)
  refine ⟨cs.takeWhile isBlank, trail, ?_, List.all_eq_true.mp List.all_takeWhile, hblank⟩
  rw [trim, ← htrail]
  exact List.takeWhile_append_dropWhile.symm

/-- Trimming twice is trimming once. -/
theorem trim_trim (cs : List Char) : trim (trim cs) = trim cs :=
  trim_eq_self (trimmed_trim cs)

/-! ### Blanks put at the ends -/

/-- A text with any blanks at its ends. -/
inductive Spaced (cs : List Char) : List Char → Prop where
  | refl : Spaced cs cs
  | front {b : Char} {ds : List Char} : isBlank b = true → Spaced cs ds → Spaced cs (b :: ds)
  | back {b : Char} {ds : List Char} : isBlank b = true → Spaced cs ds → Spaced cs (ds ++ [b])

theorem Spaced.append_blanks {cs ds trail : List Char} (h : Spaced cs ds)
    (htrail : ∀ c ∈ trail, isBlank c = true) : Spaced cs (ds ++ trail) := by
  induction trail generalizing ds with
  | nil => rwa [List.append_nil]
  | cons b trail ih =>
      obtain ⟨hb, htrail⟩ := List.forall_mem_cons.mp htrail
      simpa using ih (.back hb h) htrail

theorem Spaced.blanks_append {cs ds lead : List Char} (h : Spaced cs ds)
    (hlead : ∀ c ∈ lead, isBlank c = true) : Spaced cs (lead ++ ds) := by
  induction lead with
  | nil => exact h
  | cons b lead ih =>
      obtain ⟨hb, hlead⟩ := List.forall_mem_cons.mp hlead
      exact .front hb (ih hlead)

/-- A text is what is left of it when trimmed, with blanks at its ends. -/
theorem spaced_trim (cs : List Char) : Spaced (trim cs) cs := by
  obtain ⟨lead, trail, heq, hlead, htrail⟩ := exists_eq_append_trim cs
  have hspaced : Spaced (trim cs) (lead ++ (trim cs ++ trail)) :=
    (Spaced.refl.append_blanks htrail).blanks_append hlead
  rwa [← heq] at hspaced

/-- Blanks put at the ends are lost in trimming. -/
theorem Spaced.trim_eq {cs ds : List Char} (h : Spaced cs ds) : trim ds = trim cs := by
  induction h with
  | refl => rfl
  | front hb _ ih => rw [trim_blank_cons hb, ih]
  | back hb _ ih => rw [trim_append_blank _ hb, ih]

theorem Spaced.notMem {cs ds : List Char} (h : Spaced cs ds) {c : Char} (hc : isBlank c = false)
    (hcs : c ∉ cs) : c ∉ ds := by
  have hne : ∀ {b}, isBlank b = true → c ≠ b := by
    rintro b hb rfl
    rw [hb] at hc
    contradiction
  induction h with
  | refl => exact hcs
  | front hb _ ih => simp [hne hb, ih]
  | back hb _ ih => simp [hne hb, ih]

/-! ### Trimming around a character -/

theorem trimStart_append_cons {c : Char} (hc : isBlank c = false) (as bs : List Char) :
    trimStart (as ++ c :: bs) = trimStart as ++ c :: bs := by
  induction as with
  | nil => simp [trimStart, hc]
  | cons a as ih =>
      rw [List.cons_append, trimStart_cons, trimStart_cons, ih]
      split <;> rfl

theorem trimEnd_append_cons {c : Char} (hc : isBlank c = false) (as bs : List Char) :
    trimEnd (as ++ c :: bs) = as ++ c :: trimEnd bs := by
  induction as with
  | nil => exact trimEnd_cons hc bs
  | cons a as ih => rw [List.cons_append, trimEnd_cons_of_ne_nil a (by simp [ih]), ih]; rfl

/-- Around a character that is no blank, the texts on both sides are trimmed at one end each. -/
theorem trim_append_cons {c : Char} (hc : isBlank c = false) (as bs : List Char) :
    trim (as ++ c :: bs) = trimStart as ++ c :: trimEnd bs := by
  rw [trim, trimStart_append_cons hc, trimEnd_append_cons hc]

theorem trim_trimStart (cs : List Char) : trim (trimStart cs) = trim cs := by
  have hspaced : Spaced (trimStart cs) (cs.takeWhile isBlank ++ trimStart cs) :=
    Spaced.refl.blanks_append (List.all_eq_true.mp List.all_takeWhile)
  rw [trimStart, List.takeWhile_append_dropWhile] at hspaced
  exact hspaced.trim_eq.symm

theorem trim_trimEnd (cs : List Char) : trim (trimEnd cs) = trim cs := by
  obtain ⟨trail, heq, htrail⟩ := exists_eq_append_trimEnd cs
  have hspaced : Spaced (trimEnd cs) (trimEnd cs ++ trail) := Spaced.refl.append_blanks htrail
  rw [← heq] at hspaced
  exact hspaced.trim_eq.symm

/-- A text is trimmed as soon as it begins without a blank and ends in a trimmed text. -/
theorem Trimmed.framed {c : Char} (hc : isBlank c = false) (middle : List Char)
    {last : List Char} (hne : last ≠ []) (h : Trimmed last) :
    Trimmed (c :: (middle ++ last)) := by
  obtain ⟨d, hd⟩ : ∃ d, last.getLast? = some d := by
    cases hlast : last.getLast? with
    | none => exact absurd (List.getLast?_eq_none_iff.mp hlast) hne
    | some d => exact ⟨d, rfl⟩
  constructor
  · simpa using hc
  · rw [← List.cons_append, List.getLast?_append, hd, Option.some_or, ← hd]
    exact h.2

theorem trimmed_of_forall {cs : List Char} (h : ∀ c ∈ cs, isBlank c = false) : Trimmed cs :=
  ⟨fun c hc => h c (List.mem_of_mem_head? hc), fun c hc => h c (List.mem_of_mem_getLast? hc)⟩

theorem allBlank_of_trimmed {cs : List Char} (h : Trimmed cs) (hne : cs ≠ []) :
    allBlank cs = false := by
  rw [← Bool.not_eq_true, ← trim_eq_nil_iff, trim_eq_self h]
  exact hne

end Parley.Text
