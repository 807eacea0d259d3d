import Mathlib.Logic.Basic
import Parley.Proofs.Script.Enclosed

/-!
# What stands at top level

Top level can be told without a scan. A text ends there when all its quotes are closed and, outside
of them, as many parentheses close as open. The pieces of a cut are the only texts that join to what
was cut, have no separator at top level and, but for the last, end at top level.

## Implementation notes

A text that closes a parenthesis too early is below top level until one opens, so depths are
differences of counts and may be negative; balanced text is the special case in which they are not.
-/

namespace Parley.Nesting

open Text (joinWith)

/-! ### Outside of quotes -/

/-- The characters of a text that stand outside of its quotes. A quote is closed by the next one of
its own kind, and a text in which one is left open has no such reading. -/
inductive Bare : List Char → List Char → Prop where
  | nil : Bare [] []
  | plain {c : Char} {cs bare : List Char} : c ≠ '"' → c ≠ '\x27' → Bare cs bare →
      Bare (c :: cs) (c :: bare)
  | quoted {q : Char} {body cs bare : List Char} : q = '"' ∨ q = '\x27' → q ∉ body →
      Bare cs bare → Bare (q :: (body ++ q :: cs)) bare

/-- Every quote is closed, and outside of quotes as many parentheses close as open. -/
def Closed (cs : List Char) : Prop :=
  ∃ bare, Bare cs bare ∧ bare.count '(' = bare.count ')'

/-- The separator stands in the text at depth zero and outside of quotes. -/
def Separates (sep : Char) (cs : List Char) : Prop :=
  ∃ front rest, cs = front ++ sep :: rest ∧ Closed front

/-! ### The scan and the counts -/

/-- Outside of quotes, a character other than a quote counts as itself. -/
theorem advance_plain {c : Char} (hdouble : c ≠ '"') (hsingle : c ≠ '\x27') (d : Int) :
    advance ⟨d, none⟩ c = ⟨d + [c].count '(' - [c].count ')', none⟩ := by
  simp only [advance, hdouble, hsingle, or_self, if_false]
  by_cases hopen : c = '('
  · simp [hopen]
  · by_cases hclose : c = ')'
    · simp [hclose]
    · simp [hopen, hclose]

/-- Inside a quote the scan waits for the quote to close. -/
theorem after_of_notMem {q : Char} {cs : List Char} (h : q ∉ cs) (d : Int) :
    after ⟨d, some q⟩ cs = ⟨d, some q⟩ := by
  induction cs with
  | nil => rfl
  | cons c cs ih =>
      obtain ⟨hc, hcs⟩ := List.ne_and_not_mem_of_not_mem_cons h
      rw [after_cons, advance_quoted hc.symm, ih hcs]

theorem after_quoted {q : Char} {body : List Char} (h : q ∉ body) (cs : List Char) (d : Int) :
    after ⟨d, some q⟩ (body ++ q :: cs) = after ⟨d, none⟩ cs := by
  rw [after_append, after_of_notMem h, after_cons, advance_closing]

/-- Outside of quotes the scan counts parentheses. -/
theorem Bare.after_eq {cs bare : List Char} (h : Bare cs bare) (d : Int) :
    after ⟨d, none⟩ cs = ⟨d + bare.count '(' - bare.count ')', none⟩ := by
  induction h generalizing d with
  | nil => simp [after]
  | @plain c cs bare hdouble hsingle _ ih =>
      rw [after_cons, advance_plain hdouble hsingle, ih, ← List.singleton_append (l := bare),
        List.count_append, List.count_append]
      simp only [Nesting.mk.injEq, and_true]
      omega
  | quoted hq hbody _ ih => rw [after_cons, advance_opening hq, after_quoted hbody, ih]

/-- A scan that ends outside of quotes has met closed quotes only. -/
theorem exists_bare (cs : List Char) (d : Int) (h : (after ⟨d, none⟩ cs).quote = none) :
    ∃ bare, Bare cs bare := by
  match cs with
  | [] => exact ⟨[], .nil⟩
  | c :: cs =>
      rw [after_cons] at h
      by_cases hquote : c = '"' ∨ c = '\x27'
      · rw [advance_opening hquote] at h
        by_cases hmem : c ∈ cs
        · obtain ⟨body, rest, rfl, hbody⟩ := List.eq_append_cons_of_mem hmem
          rw [after_quoted hbody] at h
          obtain ⟨bare, hbare⟩ := exists_bare rest d h
          exact ⟨bare, .quoted hquote hbody hbare⟩
        · -- A quote that does not close would still be open at the end.
          rw [after_of_notMem hmem] at h
          contradiction
      · obtain ⟨hdouble, hsingle⟩ := not_or.mp hquote
        rw [advance_plain hdouble hsingle] at h
        obtain ⟨bare, hbare⟩ := exists_bare cs _ h
        exact ⟨c :: bare, .plain hdouble hsingle hbare⟩
termination_by cs.length

/-- The counts are even and all quotes closed exactly where the scan is back at top level. -/
theorem closed_iff {cs : List Char} : Closed cs ↔ (after {} cs).isTop = true := by
  constructor
  · rintro ⟨bare, hbare, hcount⟩
    rw [hbare.after_eq 0]
    simp [isTop, hcount]
  · intro htop
    obtain ⟨bare, hbare⟩ := exists_bare cs 0 (by rw [eq_of_isTop htop])
    refine ⟨bare, hbare, ?_⟩
    rw [hbare.after_eq 0] at htop
    simp only [isTop, Bool.and_eq_true, beq_iff_eq] at htop
    omega

instance (cs : List Char) : Decidable (Closed cs) :=
  decidable_of_iff' _ closed_iff

/-! ### Separators -/

/-- A text is whole where no separator in it is met at top level. -/
theorem whole_iff {sep : Char} {n : Nesting} {cs : List Char} :
    Whole sep n cs ↔ ∀ front rest, cs = front ++ sep :: rest → ¬ (n.after front).isTop = true := by
  induction cs generalizing n with
  | nil => simp [whole_nil]
  | cons c cs ih =>
      rw [whole_cons_iff, ih]
      constructor
      · rintro ⟨hc, hcs⟩ front rest heq
        cases front with
        | nil => exact fun htop => hc ⟨(List.cons.inj heq).1, htop⟩
        | cons d front =>
            obtain ⟨rfl, hrest⟩ := List.cons.inj heq
            exact hcs front rest hrest
      · intro h
        refine ⟨fun hcut => ?_, fun front rest heq => h (c :: front) rest (congrArg _ heq)⟩
        exact h [] cs (congrArg (· :: cs) hcut.1) hcut.2

/-- No character separates a text exactly where the scan does not cut it. -/
theorem not_separates_iff {sep : Char} {cs : List Char} :
    ¬ Separates sep cs ↔ Whole sep {} cs := by
  simp only [Separates, whole_iff, closed_iff, not_exists, not_and]

instance (sep : Char) (cs : List Char) : Decidable (Separates sep cs) :=
  decidable_of_iff (¬ splitTopLevel sep cs = [cs]) (not_iff_comm.mp not_separates_iff)

/-! ### The pieces of a cut -/

/-- The pieces of a cut are determined by what they join to, by having no separator at top level
and by where all but the last of them end. -/
theorem splitTopLevel_eq_iff {sep : Char} {cs : List Char} {pieces : List (List Char)} :
    splitTopLevel sep cs = pieces ↔ pieces ≠ [] ∧ joinWith [sep] pieces = cs ∧
      (∀ piece ∈ pieces, ¬ Separates sep piece) ∧ ∀ piece ∈ pieces.dropLast, Closed piece := by
  simp only [not_separates_iff, closed_iff]
  constructor
  · rintro rfl
    have hcut := Cut.of_split sep {} cs
    exact ⟨hcut.ne_nil, hcut.joinWith_eq, hcut.whole_of_mem, fun piece hp =>
      (hcut.isPiece_of_mem_dropLast piece hp).closed⟩
  · rintro ⟨hne, rfl, hwhole, hclosed⟩
    exact splitTopLevel_joinWith_of_closed hne hwhole hclosed

theorem isInert_of_mem_separators {sep : Char} (h : sep ∈ separators) : isInert sep = true := by
  simp only [separators, List.mem_cons, List.not_mem_nil, or_false] at h
  rcases h with rfl | rfl <;> rfl

/-- The pieces of a cut give back the text when they are joined with the separator. None of them
has the separator at top level, and all but the last close what they open. A text that does both is
one more piece in front of the pieces of any other. The pieces of a balanced text are balanced. -/
theorem cut_at_top_level {sep : Char} (hsep : sep ∈ separators) (cs : List Char) :
    joinWith [sep] (splitTopLevel sep cs) = cs ∧
      (∀ piece ∈ splitTopLevel sep cs, ¬ Separates sep piece) ∧
      (∀ piece ∈ (splitTopLevel sep cs).dropLast, Closed piece) ∧
      (∀ front, Closed front → ¬ Separates sep front →
        splitTopLevel sep (front ++ sep :: cs) = front :: splitTopLevel sep cs) ∧
      (balanced cs = true → ∀ piece ∈ splitTopLevel sep cs, balanced piece = true) := by
  obtain ⟨-, hjoin, hnone, hclosed⟩ := splitTopLevel_eq_iff.mp (Eq.refl (splitTopLevel sep cs))
  refine ⟨hjoin, hnone, hclosed, fun front htop hfront => ?_, fun hcs => ?_⟩
  · exact IsPiece.split_append ⟨not_separates_iff.mp hfront, closed_iff.mp htop⟩ cs
  · exact (Cut.of_split sep {} cs).balanced_of_mem (isInert_of_mem_separators hsep) hcs

/-! Commas in a quote and between parentheses. The text in front of them closes a parenthesis before
it opens one, so that the comma between the two is below top level. -/

def satchel : List Char :=
  "'nuts, (bolts', f(1, \"(\")".toList

/-- A text that closes a parenthesis before it opens one. -/
def reversed : List Char :=
  "\"(,\" ),(".toList

theorem satchel_cut_at_top_level :
    splitTopLevel ',' satchel = ["'nuts, (bolts'".toList, " f(1, \"(\")".toList] ∧
      joinWith [','] ["'nuts, (bolts'".toList, " f(1, \"(\")".toList] = satchel ∧
      Closed "'nuts, (bolts'".toList ∧ ¬ Separates ',' " f(1, \"(\")".toList ∧
      balanced reversed = false ∧
      splitTopLevel ',' (reversed ++ ',' :: satchel) =
        [reversed, "'nuts, (bolts'".toList, " f(1, \"(\")".toList] ∧
      balanced satchel = true ∧ balanced " f(1, \"(\")".toList = true := by
  have hpieces : splitTopLevel ',' satchel = ["'nuts, (bolts'".toList, " f(1, \"(\")".toList] := by
    decide +kernel
  have hbalanced : balanced satchel = true := by decide +kernel
  have hlaws := cut_at_top_level (by decide : ',' ∈ separators) satchel
  rw [hpieces] at hlaws
  obtain ⟨hjoin, hnone, hclosed, hfront, hall⟩ := hlaws
  refine ⟨hpieces, hjoin, hclosed _ List.mem_cons_self, hnone _ ?_, by decide +kernel,
    hfront reversed ?_ ?_, hbalanced, hall hbalanced _ ?_⟩
  · exact List.mem_cons_of_mem _ List.mem_cons_self
  · decide +kernel
  · decide +kernel
  · exact List.mem_cons_of_mem _ List.mem_cons_self

end Parley.Nesting
